import SecurityFramework.Securityd.SecDbItem

/-! # Views -/

namespace SecurityFramework
inductive ViewSystem where
  | SOS
  | CKKS
  deriving DecidableEq

def viewList : List (CFString × ViewSystem) :=
  [(cfstr "WiFi", .SOS),
    (cfstr "Passwords", .SOS),
    (cfstr "CreditCards", .SOS),
    (cfstr "iCloudIdentity", .SOS),
    (cfstr "BackupBagV0", .SOS),
    (cfstr "OtherSyncable", .SOS),
    (cfstr "ContinuityUnlock", .SOS),
    (cfstr "AppleTV", .SOS),
    (cfstr "HomeKit", .SOS),
    (cfstr "AccessoryPairing", .SOS),
    (cfstr "PCS-CloudKit", .SOS),
    (cfstr "PCS-Escrow", .SOS),
    (cfstr "PCS-FDE", .SOS),
    (cfstr "PCS-Feldspar", .SOS),
    (cfstr "PCS-Maildrop", .SOS),
    (cfstr "PCS-MasterKey", .SOS),
    (cfstr "PCS-Notes", .SOS),
    (cfstr "PCS-Photos", .SOS),
    (cfstr "PCS-Sharing", .SOS),
    (cfstr "PCS-Backup", .SOS),
    (cfstr "PCS-iCloudDrive", .SOS),
    (cfstr "PCS-iMessage", .SOS),
    (cfstr "NanoRegistry", .SOS),
    (cfstr "WatchMigration", .SOS),
    (cfstr "Engram", .CKKS),
    (cfstr "Manatee", .CKKS),
    (cfstr "AutoUnlock", .CKKS),
    (cfstr "Health", .CKKS),
    (cfstr "ApplePay", .CKKS),
    (cfstr "Home", .CKKS),
    (cfstr "LimitedPeersAllowed", .CKKS),
    (cfstr "MFi", .CKKS),
    (cfstr "Mail", .CKKS),
    (cfstr "Contacts", .CKKS),
    (cfstr "Photos", .CKKS),
    (cfstr "Groups", .CKKS)]

def kSOSViewKeychainV0 : CFString := cfstr "KeychainV0"

def kSOSViewWiFi : CFString := cfstr "WiFi"

def kSOSViewAutofillPasswords : CFString := cfstr "Passwords"

def kSOSViewSafariCreditCards : CFString := cfstr "CreditCards"

def kSOSViewiCloudIdentity : CFString := cfstr "iCloudIdentity"

def kSOSViewBackupBagV0 : CFString := cfstr "BackupBagV0"

def kSOSViewOtherSyncable : CFString := cfstr "OtherSyncable"

def tombView (view : CFString) : CFString := view ++ cfstr "-tomb"

def SOSViewInSOSSystem (view : CFString) : Bool :=
  if view = kSOSViewKeychainV0 then true
  else
    match viewList.find? fun entry => entry.1 = view with
    | some (_, system) => system = .SOS
    | none => false

def SOSViewHintInCKKSSystem (viewHint : CFString) : Bool :=
  viewList.any fun entry => entry.1 = viewHint ∧ entry.2 = .CKKS
end SecurityFramework
