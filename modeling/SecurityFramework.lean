import SecurityFramework.Authd.Credential
import SecurityFramework.Authd.RuleLookup
import SecurityFramework.Authd.RuleSearch
import SecurityFramework.CdsaUtilities.OidTextExactness
import SecurityFramework.Ckks.IncomingQueueLoops
import SecurityFramework.Ckks.ItemRoundTrip
import SecurityFramework.Ckks.RateLimiterBuckets
import SecurityFramework.Ckks.SyncCallbackRuns
import SecurityFramework.CodeSigning.CodeDirectoryAgreement
import SecurityFramework.CodeSigning.LiteralExactness
import SecurityFramework.CodeSigning.MatchExactness
import SecurityFramework.CodeSigning.ReaderBounds
import SecurityFramework.CodeSigning.RequirementDumperAgreement
import SecurityFramework.CodeSigning.ResourceRuleOrder
import SecurityFramework.Filedb.ComparisonCoherence
import SecurityFramework.Filedb.DbModifier
import SecurityFramework.Filedb.IndexConsistency
import SecurityFramework.Filedb.StaleRecordId
import SecurityFramework.Octagon.PendingFlags
import SecurityFramework.Otr.Authentication
import SecurityFramework.Otr.CounterFreshness
import SecurityFramework.Sec.OidDecimal
import SecurityFramework.Sec.SecCborCanonical
import SecurityFramework.SecureObjectSync.CircleJoining
import SecurityFramework.SecureObjectSync.EngineViews
import SecurityFramework.SecureObjectSync.ManifestExactness
import SecurityFramework.SecureObjectSync.PeerInfoSizes
import SecurityFramework.SecureObjectSync.ReceivedManifests
import SecurityFramework.SecureObjectSync.RingIdentity
import SecurityFramework.SecurityUtilities.SuperBlobTiling
import SecurityFramework.Securityd.KeychainRowInvariant
import SecurityFramework.Securityd.ObjectMergeConvergence
import SecurityFramework.Securityd.PropertyListExactness
import SecurityFramework.Trustd.ExtendedKeyUsage
import SecurityFramework.Trustd.ExtendedValidation
import SecurityFramework.Trustd.LeafSubject
import SecurityFramework.Trustd.NameConstraintsParsing
import SecurityFramework.Trustd.NormalizedNameForm
import SecurityFramework.Trustd.PathLength
import SecurityFramework.Trustd.PolicyTreeWalk
import SecurityFramework.Trustd.ReportTermination
import SecurityFramework.Trustd.RevocationCache
import SecurityFramework.Trustd.RevocationIdentifiers
import SecurityFramework.Trustd.StringAccesses
import SecurityFramework.Trustd.SubtreeIntersection
import SecurityFramework.Trustd.URIMatching
import SecurityFramework.Trustd.UpdateFraming
import SecurityFramework.Utilities.DerPlistReading
