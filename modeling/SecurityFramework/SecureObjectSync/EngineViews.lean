import SecurityFramework.Securityd.SecItemDataSource

/-! # The views of an item -/

namespace SecurityFramework
def withViewAndBackup (isTomb : Bool) (view : CFString) : List CFString :=
  view :: if isTomb then [] else [tombView view]

def viewOfAccessGroup (item : SecDbItem) : CFString :=
  let agrp := SecDbItemGetCachedValueWithName item .v6agrp
  if item.cls = .keys ∧ agrp = some (.string (cfstr "com.apple.security.sos")) then
    kSOSViewiCloudIdentity
  else if agrp = some (.string (cfstr "com.apple.cfnetwork")) then kSOSViewAutofillPasswords
  else if agrp = some (.string (cfstr "com.apple.safari.credit-cards")) then
    kSOSViewSafariCreditCards
  else if item.cls = .genp then
    if agrp = some (.string (cfstr "apple")) ∧
        SecDbItemGetCachedValueWithName item .v6svce = some (.string (cfstr "AirPort")) then
      kSOSViewWiFi
    else if agrp = some (.string (cfstr "com.apple.sbd")) then kSOSViewBackupBagV0
    else kSOSViewOtherSyncable
  else kSOSViewOtherSyncable

def itemViewHint (item : SecDbItem) : Option CFString :=
  match SecDbItemGetCachedValueWithName item .v7vwht with
  | some (.string viewHint) => some viewHint
  | _ => none

def itemIsTomb (item : SecDbItem) : Bool :=
  SecDbItemGetCachedValueWithName item .v6tomb = some (.number 1)

def isSyncableAccessibility : Option CFType → Bool
  | some (.string pdmn) => syncableAccessibilities.contains pdmn
  | _ => false

def SOSEngineObjectWithView (item : SecDbItem) : List CFString :=
  if SecDbItemIsSyncableOrCorrupted item then
    if (item.cls = .genp ∨ item.cls = .inet ∨ item.cls = .keys ∨ item.cls = .cert) ∧
        isSyncableAccessibility (SecDbItemGetCachedValueWithName item .v6pdmn) then
      if (itemViewHint item).any SOSViewHintInCKKSSystem then []
      else if ¬ SecDbItemIsPrimaryUserItem item then []
      else
        match itemViewHint item with
        | some viewHint => withViewAndBackup (itemIsTomb item) viewHint
        | none =>
          if item.cls = .cert then withViewAndBackup (itemIsTomb item) kSOSViewOtherSyncable
          else
            (if (SecDbItemGetCachedValueWithName item .v7tkid).isNone then
              withViewAndBackup (itemIsTomb item) kSOSViewKeychainV0
            else []) ++ withViewAndBackup (itemIsTomb item) (viewOfAccessGroup item)
    else []
  else []

@[simp] theorem qClass_set (q : Query) (attr : SecDbAttr) (value : QueryValue) :
    (q.set attr value).qClass = q.qClass := rfl

@[simp] theorem qClass_queryAddAttributeWithDesc (desc : SecDbAttr) (value : CFType) (q : Query) :
    (queryAddAttributeWithDesc desc value q).qClass = q.qClass := by
  rw [queryAddAttributeWithDesc]
  split
  · rfl
  · split <;> rfl

@[simp] theorem qClass_queryAddAttribute (key : SecDbAttr) (value : CFType) (q : Query) :
    (queryAddAttribute key value q).qClass = q.qClass := by
  rw [queryAddAttribute]
  split
  · exact qClass_queryAddAttributeWithDesc key value q
  · rfl

@[simp] theorem qClass_addToArray (key : SecDbAttr) (array : List CFType) (value : CFType)
    (q : Query) : (addToArray key array value q).qClass = q.qClass := by
  rw [addToArray]
  split <;> rfl

@[simp] theorem qClass_queryAddNotAttribute (key : SecDbAttr) (value : CFType) (q : Query) :
    (queryAddNotAttribute key value q).qClass = q.qClass := by
  rw [queryAddNotAttribute]
  split
  · split <;> exact qClass_addToArray _ _ _ _
  · rfl

theorem withClassAndViewHint_eq {qclass : SecDbClass} (hclass : qclass ∈ dsSyncedClasses)
    (noTombstones allowTkid : Bool) (viewHint : Option CFString) :
    (SecItemDataSourceAppendQueryWithClassAndViewHint qclass noTombstones allowTkid
        viewHint).qClass = qclass ∧
      ∀ attr, (SecItemDataSourceAppendQueryWithClassAndViewHint qclass noTombstones allowTkid
          viewHint).qItem attr =
        match attr with
        | .v6sync => some (.value (.number 1))
        | .v6pdmn => some (.array (syncableAccessibilities.map .string))
        | .v6tomb => if noTombstones then some (.value (.number 0)) else none
        | .v7vwht => some (.value (.string (viewHint.getD (cfstr ""))))
        | .v7tkid => if allowTkid then none else some (.value (.string (cfstr "")))
        | _ => none := by
  cases qclass with
  | identity => simp [dsSyncedClasses] at hclass
  | _ =>
    cases noTombstones <;> cases allowTkid <;> cases viewHint <;>
      exact ⟨rfl, fun attr => by cases attr <;> rfl⟩

@[simp] theorem qClass_withClassAndViewHint (qclass : SecDbClass) (noTombstones allowTkid : Bool)
    (viewHint : Option CFString) :
    (SecItemDataSourceAppendQueryWithClassAndViewHint qclass noTombstones allowTkid
      viewHint).qClass = qclass := by
  cases qclass with
  | identity => cases noTombstones <;> rfl
  | _ => exact (withClassAndViewHint_eq (by decide) noTombstones allowTkid viewHint).1

@[simp] theorem qClass_withClassAndAgrp (qclass : SecDbClass) (noTombstones allowTkid : Bool)
    (agrp : CFString) :
    (SecItemDataSourceAppendQueryWithClassAndAgrp qclass noTombstones allowTkid agrp).qClass =
      qclass := by
  rw [SecItemDataSourceAppendQueryWithClassAndAgrp, qClass_queryAddAttribute]
  exact qClass_withClassAndViewHint qclass noTombstones allowTkid none

@[simp] theorem qClass_withClass (qclass : SecDbClass) (noTombstones allowTkid : Bool) :
    (SecItemDataSourceAppendQueryWithClass qclass noTombstones allowTkid).qClass = qclass :=
  qClass_withClassAndViewHint qclass noTombstones allowTkid none

/-- A synced item of one of the classes, without a view hint and a token, accessible as synced items
are. -/
structure SecDbItem.SyncedByDefault (item : SecDbItem) : Prop where
  cls : item.cls ∈ dsSyncedClasses
  sync : SecDbItemGetValue item .v6sync = .number 1
  accessible : ∃ pdmn ∈ syncableAccessibilities, SecDbItemGetValue item .v6pdmn = .string pdmn
  viewHint : SecDbItemGetValue item .v7vwht = .null ∨
    SecDbItemGetValue item .v7vwht = .string (cfstr "")
  token : SecDbItemGetValue item .v7tkid = .null ∨
    SecDbItemGetValue item .v7tkid = .string (cfstr "")

/-- `SecItemDataSourceAppendQueriesForViewName` has a query that selects the item. -/
def SelectedForView (sha1 : List UInt8 → List UInt8) (item : SecDbItem) (view : CFString) : Prop :=
  ∃ q ∈ SecItemDataSourceAppendQueriesForViewName view, SecDbItemSelect sha1 q item = true

section
variable {sha1 : List UInt8 → List UInt8} {item : SecDbItem}

theorem select_cls {q : Query} (hselect : SecDbItemSelect sha1 q item = true) :
    item.cls = q.qClass := by
  rw [SecDbItemSelect, decide_eq_true_eq] at hselect
  exact hselect.1

theorem copyValueForDb_default {attr : SecDbAttr} (hattr : attr = .v7vwht ∨ attr = .v7tkid)
    (hvalue : SecDbItemGetValue item attr = .null ∨
      SecDbItemGetValue item attr = .string (cfstr "")) :
    SecDbItemCopyValueForDb sha1 item attr = some (.string (cfstr "")) := by
  rw [SecDbItemCopyValueForDb]
  cases hattr with
  | inl hhint => subst hhint; cases hvalue with
    | inl hnull => rw [hnull]; rfl
    | inr hempty => rw [hempty]; rfl
  | inr htoken => subst htoken; cases hvalue with
    | inl hnull => rw [hnull]; rfl
    | inr hempty => rw [hempty]; rfl

theorem copyValueForDb_plain {attr : SecDbAttr} {value : CFType}
    (hvalue : SecDbItemGetValue item attr = value) (hne : value ≠ .null)
    (hplain : attr.flags.sha1ValueIn = false) :
    SecDbItemCopyValueForDb sha1 item attr = some value := by
  simp [SecDbItemCopyValueForDb, SecDbAttrCopyValueForDb, hvalue, hne, hplain]

theorem whereClause_accessible {pdmn : CFString} (hpdmn : pdmn ∈ syncableAccessibilities) :
    whereClause sha1 .v6pdmn (.string pdmn)
      (some (.array (syncableAccessibilities.map .string))) = true := by
  simp only [syncableAccessibilities, List.mem_cons, List.not_mem_nil, or_false] at hpdmn
  rcases hpdmn with rfl | rfl | rfl | rfl | rfl | rfl <;> rfl

theorem whereClause_withClassAndViewHint (hitem : item.SyncedByDefault)
    (noTombstones allowTkid : Bool) (viewHint : Option CFString) (attr : SecDbAttr) :
    ((SecDbItemCopyValueForDb sha1 item attr).any fun column =>
        whereClause sha1 attr column ((SecItemDataSourceAppendQueryWithClassAndViewHint item.cls
          noTombstones allowTkid viewHint).qItem attr)) = true ↔
      match attr with
      | .v7vwht => viewHint.getD (cfstr "") = cfstr ""
      | .v6tomb => noTombstones = true → SecDbItemGetValue item .v6tomb = .number 0
      | _ => True := by
  have hquery := (withClassAndViewHint_eq hitem.cls noTombstones allowTkid viewHint).2 attr
  obtain ⟨column, hcolumn⟩ :=
    Option.isSome_iff_exists.mp (copyValueForDb_isSome sha1 item attr)
  rw [hquery]
  cases attr with
  | v6agrp | v8musr | v6svce => simp [hcolumn, whereClause]
  | v6sync =>
    rw [copyValueForDb_plain hitem.sync (by simp) rfl]
    simp [whereClause, SecDbAttrCopyValueForDb, SecDbAttr.flags, sqlEquals]
  | v6pdmn =>
    obtain ⟨pdmn, hpdmn, hvalue⟩ := hitem.accessible
    rw [copyValueForDb_plain hvalue (by simp) rfl]
    simp [whereClause_accessible hpdmn]
  | v6tomb =>
    obtain ⟨tomb, htomb⟩ := getValue_holds item .v6tomb
    rw [copyValueForDb_plain htomb (by simp) rfl, htomb]
    cases noTombstones <;>
      simp [whereClause, SecDbAttrCopyValueForDb, SecDbAttr.flags, sqlEquals]
  | v7vwht =>
    rw [copyValueForDb_default (.inl rfl) hitem.viewHint]
    simp [whereClause, SecDbAttrCopyValueForDb, SecDbAttr.flags, sqlEquals, eq_comm]
  | v7tkid =>
    rw [copyValueForDb_default (.inr rfl) hitem.token]
    cases allowTkid <;>
      simp [whereClause, SecDbAttrCopyValueForDb, SecDbAttr.flags, sqlEquals]

/-- The query of a synced item's class selects it if its view hint is the default one, and it
takes tombstones or the item is none. -/
theorem select_withClassAndViewHint (hitem : item.SyncedByDefault) (noTombstones allowTkid : Bool)
    (viewHint : Option CFString) :
    SecDbItemSelect sha1 (SecItemDataSourceAppendQueryWithClassAndViewHint item.cls noTombstones
        allowTkid viewHint) item = true ↔
      viewHint.getD (cfstr "") = cfstr "" ∧
        (noTombstones = true → SecDbItemGetValue item .v6tomb = .number 0) := by
  have hclass := (withClassAndViewHint_eq hitem.cls noTombstones allowTkid viewHint).1
  have hclause := @whereClause_withClassAndViewHint sha1 item hitem noTombstones allowTkid viewHint
  have hattrs : SecDbAttr.v7vwht ∈ item.cls.attrs ∧ SecDbAttr.v6tomb ∈ item.cls.attrs := by
    have hcls := hitem.cls
    cases hcase : item.cls with
    | identity => simp [hcase, dsSyncedClasses] at hcls
    | _ => decide
  rw [SecDbItemSelect, decide_eq_true_eq, hclass]
  constructor
  · intro hselect
    exact ⟨(hclause .v7vwht).mp (hselect.2 _ hattrs.1), (hclause .v6tomb).mp (hselect.2 _ hattrs.2)⟩
  · intro hboth
    refine ⟨rfl, ?_⟩
    intro attr _
    rw [hclause attr]
    cases attr with
    | v7vwht => exact hboth.1
    | v6tomb => exact hboth.2
    | _ => trivial

/-- The view of the first peers selects every synced item but certificates. -/
theorem selected_keychainV0 (hitem : item.SyncedByDefault) (hcls : item.cls ≠ .cert) :
    SelectedForView sha1 item kSOSViewKeychainV0 := by
  have hqueries : SecItemDataSourceAppendQueriesForViewName kSOSViewKeychainV0 =
      dsSyncedClassesV0.map fun qclass =>
        SecItemDataSourceAppendQueryWithClassAndViewHint qclass false false none := rfl
  have hmem : item.cls ∈ dsSyncedClassesV0 := by
    have hsynced := hitem.cls
    cases hcase : item.cls with
    | identity => simp [hcase, dsSyncedClasses] at hsynced
    | cert => exact absurd hcase hcls
    | _ => decide
  refine ⟨_, by rw [hqueries]; exact List.mem_map_of_mem hmem, ?_⟩
  exact (select_withClassAndViewHint hitem false false none).mpr ⟨rfl, by simp⟩

theorem not_exists_select {queries : List Query} (hne : ∀ q ∈ queries, item.cls ≠ q.qClass) :
    ¬ ∃ q ∈ queries, SecDbItemSelect sha1 q item = true := by
  rintro ⟨q, hq, hselect⟩
  exact hne q hq (select_cls hselect)

/-- Of the views of the data source, that of other items only has certificates. -/
theorem exists_queriesForView_cert (hitem : item.SyncedByDefault) (hcls : item.cls = .cert)
    {viewName : CFString} (hview : SOSViewInSOSSystem viewName = true) (noTombstones : Bool) :
    (∃ q ∈ queriesForView viewName noTombstones, SecDbItemSelect sha1 q item = true) ↔
      viewName = kSOSViewOtherSyncable ∧
        (noTombstones = true → SecDbItemGetValue item .v6tomb = .number 0) := by
  have hempty : viewName ≠ cfstr "" := by
    rintro rfl
    exact absurd hview (by decide)
  have hselect := fun viewHint =>
    hcls ▸ @select_withClassAndViewHint sha1 item hitem noTombstones true viewHint
  by_cases hother : viewName = kSOSViewOtherSyncable
  · -- the other queries of the view are for the other classes
    subst hother
    have hqueries : ∃ queries, queriesForView kSOSViewOtherSyncable noTombstones =
        SecItemDataSourceAppendQueryWithClass .cert noTombstones true :: queries ∧
          ∀ q ∈ queries, item.cls ≠ q.qClass := by
      refine ⟨_, rfl, ?_⟩
      intro q hq
      simp only [List.mem_cons, List.not_mem_nil, or_false] at hq
      rcases hq with rfl | rfl | rfl | rfl <;> simp [hcls]
    obtain ⟨queries, hqueries, hne⟩ := hqueries
    have hrest := @not_exists_select sha1 item _ hne
    rw [hqueries]
    constructor
    · rintro ⟨q, hq, hq'⟩
      rcases List.mem_cons.mp hq with rfl | hq
      · exact ⟨rfl, ((hselect none).mp hq').2⟩
      · exact absurd ⟨q, hq, hq'⟩ hrest
    · intro hboth
      exact ⟨_, List.mem_cons_self, (hselect none).mpr ⟨rfl, hboth.2⟩⟩
  · have hfalse : ¬ ∃ q ∈ queriesForView viewName noTombstones,
        SecDbItemSelect sha1 q item = true := by
      rw [queriesForView]
      split_ifs
      · apply not_exists_select
        intro q hq
        rw [List.mem_map] at hq
        obtain ⟨qclass, hqclass, rfl⟩ := hq
        simp only [dsSyncedClassesV0, List.mem_cons, List.not_mem_nil, or_false] at hqclass
        rcases hqclass with rfl | rfl | rfl <;> simp [hcls]
      · apply not_exists_select
        simp [hcls]
      · apply not_exists_select
        simp [hcls]
      · apply not_exists_select
        simp [hcls]
      · apply not_exists_select
        simp [hcls]
      · apply not_exists_select
        simp [hcls]
      · -- queries for the name as a view hint, which the item does not have
        rintro ⟨q, hq, hq'⟩
        obtain ⟨qclass, hqclass, rfl⟩ := List.mem_map.mp hq
        have hsame := select_cls hq'
        rw [qClass_withClassAndViewHint, hcls] at hsame
        subst hsame
        exact hempty ((hselect (some viewName)).mp hq').1
    exact iff_of_false hfalse fun hboth => hother hboth.1

/-- A view that does not end in `b` is no view without tombstones. -/
theorem tombView_ne {view : CFString} (hlast : view.getLast? ≠ (cfstr "-tomb").getLast?)
    (base : CFString) : tombView base ≠ view := by
  intro heq
  apply hlast
  rw [← heq, tombView, List.getLast?_append_of_ne_nil _ (by decide)]

/-- A certificate is in the view of other items only, and without tombstones if it is none. -/
theorem selected_cert_iff (hitem : item.SyncedByDefault) (hcls : item.cls = .cert)
    (view : CFString) :
    SelectedForView sha1 item view ↔ view = kSOSViewOtherSyncable ∨
      (view = tombView kSOSViewOtherSyncable ∧
        SecDbItemGetValue item .v6tomb = .number 0) := by
  rw [SelectedForView, SecItemDataSourceAppendQueriesForViewName]
  by_cases hsuffix : cfstr "-tomb" <:+ view
  · obtain ⟨base, rfl⟩ := id hsuffix
    have hother : base ++ cfstr "-tomb" ≠ kSOSViewOtherSyncable := tombView_ne (by decide) base
    have hbase : (base ++ cfstr "-tomb").take ((base ++ cfstr "-tomb").length - 5) = base := by
      have hlen : (cfstr "-tomb").length = 5 := by decide
      rw [List.length_append, hlen, Nat.add_sub_cancel, List.take_left]
    simp only [hsuffix, decide_true, if_true, hbase, hother, false_or, tombView,
      List.append_left_inj]
    split_ifs with hview
    · rw [exists_queriesForView_cert hitem hcls hview]
      simp
    · have hne : base ≠ kSOSViewOtherSyncable := by
        rintro rfl
        exact hview (by decide)
      simp [hne]
  · have hne : view ≠ tombView kSOSViewOtherSyncable := by
      intro heq
      exact hsuffix ⟨kSOSViewOtherSyncable, heq.symm⟩
    simp only [hsuffix, decide_false, Bool.false_eq_true, if_false, hne, false_and, or_false]
    split_ifs with hview
    · rw [exists_queriesForView_cert hitem hcls hview]
      simp
    · have hne : view ≠ kSOSViewOtherSyncable := by
        rintro rfl
        exact hview (by decide)
      simp [hne]

theorem mem_attrs_of_synced (hcls : item.cls ∈ dsSyncedClasses) {attr : SecDbAttr}
    (hattr : attr ≠ .v6svce) : attr ∈ item.cls.attrs := by
  cases hcase : item.cls with
  | identity => simp [hcase, dsSyncedClasses] at hcls
  | _ => cases attr <;> first | exact absurd rfl hattr | decide

theorem itemViewHint_eq (hitem : item.SyncedByDefault) :
    itemViewHint item =
      if SecDbItemGetValue item .v7vwht = .null then none else some (cfstr "") := by
  rw [itemViewHint, getCachedValueWithName_eq (mem_attrs_of_synced hitem.cls (by decide))]
  cases hitem.viewHint with
  | inl hnull => simp [hnull]
  | inr hempty => simp [hempty]

theorem itemIsTomb_eq (hitem : item.SyncedByDefault) :
    itemIsTomb item = decide (SecDbItemGetValue item .v6tomb = .number 1) := by
  rw [itemIsTomb, getCachedValueWithName_eq (mem_attrs_of_synced hitem.cls (by decide))]
  simp

/-- The views of a synced item are those of its view hint or, without any, of its class and access
group: its token, unset or not, is never `NULL`. -/
theorem SOSEngineObjectWithView_eq (hitem : item.SyncedByDefault) :
    SOSEngineObjectWithView item =
      if ¬ SecDbItemIsPrimaryUserItem item then []
      else if SecDbItemGetValue item .v7vwht ≠ .null then
        withViewAndBackup (itemIsTomb item) (cfstr "")
      else if item.cls = .cert then withViewAndBackup (itemIsTomb item) kSOSViewOtherSyncable
      else withViewAndBackup (itemIsTomb item) (viewOfAccessGroup item) := by
  have hsync : SecDbItemIsSyncableOrCorrupted item = true := by
    simp [SecDbItemIsSyncableOrCorrupted, hitem.sync]
  have hcls : item.cls = .genp ∨ item.cls = .inet ∨ item.cls = .keys ∨ item.cls = .cert := by
    simpa [dsSyncedClasses] using hitem.cls
  have haccessible :
      isSyncableAccessibility (SecDbItemGetCachedValueWithName item .v6pdmn) = true := by
    obtain ⟨pdmn, hpdmn, hvalue⟩ := hitem.accessible
    rw [getCachedValueWithName_eq (mem_attrs_of_synced hitem.cls (by decide)), hvalue]
    simpa [isSyncableAccessibility] using hpdmn
  have htoken : (SecDbItemGetCachedValueWithName item .v7tkid).isNone = false := by
    rw [getCachedValueWithName_eq (mem_attrs_of_synced hitem.cls (by decide))]
    rfl
  have hckks : (itemViewHint item).any SOSViewHintInCKKSSystem = false := by
    rw [itemViewHint_eq hitem]
    split_ifs
    · rfl
    · decide
  rw [SOSEngineObjectWithView, if_pos hsync, if_pos ⟨hcls, haccessible⟩, hckks, htoken,
    itemViewHint_eq hitem]
  by_cases hnull : SecDbItemGetValue item .v7vwht = .null
  · simp [hnull]
  · simp [hnull]

theorem mem_withViewAndBackup {isTomb : Bool} {view other : CFString} :
    other ∈ withViewAndBackup isTomb view ↔
      other = view ∨ (isTomb = false ∧ other = tombView view) := by
  cases isTomb <;> simp [withViewAndBackup]

theorem keychainV0_not_mem (hitem : item.SyncedByDefault) :
    kSOSViewKeychainV0 ∉ SOSEngineObjectWithView item := by
  have hview : viewOfAccessGroup item ∈ [kSOSViewiCloudIdentity, kSOSViewAutofillPasswords,
      kSOSViewSafariCreditCards, kSOSViewWiFi, kSOSViewBackupBagV0, kSOSViewOtherSyncable] := by
    rw [viewOfAccessGroup]
    split_ifs <;> decide
  have hne : viewOfAccessGroup item ≠ kSOSViewKeychainV0 := by
    intro heq
    rw [heq] at hview
    exact absurd hview (by decide)
  have hwith : ∀ view, view ≠ kSOSViewKeychainV0 →
      kSOSViewKeychainV0 ∉ withViewAndBackup (itemIsTomb item) view := by
    intro view hview hmem
    cases mem_withViewAndBackup.mp hmem with
    | inl heq => exact hview heq.symm
    | inr htomb => exact tombView_ne (by decide) view htomb.2.symm
  rw [SOSEngineObjectWithView_eq hitem]
  split_ifs
  · exact hwith _ (by decide)
  · exact hwith _ (by decide)
  · exact hwith _ hne
  · exact List.not_mem_nil

/-- For a certificate of the primary user with no view hint, the two differ on tombstones that are
neither set nor unset only. -/
theorem cert_agrees_iff (hitem : item.SyncedByDefault) (hcls : item.cls = .cert)
    (hprimary : SecDbItemIsPrimaryUserItem item = true)
    (hhint : SecDbItemGetValue item .v7vwht = .null) :
    (∀ view, view ∈ SOSEngineObjectWithView item ↔ SelectedForView sha1 item view) ↔
      (SecDbItemGetValue item .v6tomb = .number 0 ∨ SecDbItemGetValue item .v6tomb = .number 1) := by
  have hreported : ∀ view, view ∈ SOSEngineObjectWithView item ↔ view = kSOSViewOtherSyncable ∨
      (view = tombView kSOSViewOtherSyncable ∧ SecDbItemGetValue item .v6tomb ≠ .number 1) := by
    intro view
    rw [SOSEngineObjectWithView_eq hitem, if_neg (by simp [hprimary]), if_neg (by simp [hhint]),
      if_pos hcls, mem_withViewAndBackup, itemIsTomb_eq hitem, decide_eq_false_iff_not, and_comm]
  have hne : tombView kSOSViewOtherSyncable ≠ kSOSViewOtherSyncable := tombView_ne (by decide) _
  constructor
  · intro hagree
    have htomb := (hreported (tombView kSOSViewOtherSyncable)).symm.trans
      ((hagree _).trans (selected_cert_iff hitem hcls _))
    simp only [hne, true_and, false_or] at htomb
    by_cases hone : SecDbItemGetValue item .v6tomb = .number 1
    · exact .inr hone
    · exact .inl (htomb.mp hone)
  · intro htomb view
    rw [hreported, selected_cert_iff hitem hcls]
    cases htomb with
    | inl hzero => simp [hzero]
    | inr hone => simp [hone]
end

/-- The views that the engine reports for a synced item without a view hint and a token are those
whose queries select it if and only if it is a certificate of the primary user, its view hint is
unset rather than empty, and it is marked as a tombstone or as none. -/
theorem objectWithView_agrees_iff (sha1 : List UInt8 → List UInt8) (item : SecDbItem)
    (hitem : item.SyncedByDefault) :
    (∀ view, view ∈ SOSEngineObjectWithView item ↔ SelectedForView sha1 item view) ↔
      item.cls = .cert ∧ SecDbItemIsPrimaryUserItem item = true ∧
        SecDbItemGetValue item .v7vwht = .null ∧
        (SecDbItemGetValue item .v6tomb = .number 0 ∨
          SecDbItemGetValue item .v6tomb = .number 1) := by
  constructor
  · intro hagree
    have hcls : item.cls = .cert := by
      by_contra hne
      exact keychainV0_not_mem hitem ((hagree _).mpr (selected_keychainV0 hitem hne))
    have hother : kSOSViewOtherSyncable ∈ SOSEngineObjectWithView item :=
      (hagree _).mpr ((selected_cert_iff hitem hcls _).mpr (.inl rfl))
    rw [SOSEngineObjectWithView_eq hitem] at hother
    have hprimary : SecDbItemIsPrimaryUserItem item = true := by
      by_contra hnot
      simp [hnot] at hother
    have hhint : SecDbItemGetValue item .v7vwht = .null := by
      by_contra hset
      rw [if_neg (by simp [hprimary]), if_pos hset, mem_withViewAndBackup] at hother
      cases hother with
      | inl hempty => exact absurd hempty (by decide)
      | inr htomb => exact absurd htomb.2 (by decide)
    exact ⟨hcls, hprimary, hhint, (cert_agrees_iff hitem hcls hprimary hhint).mp hagree⟩
  · intro hcert
    exact (cert_agrees_iff hitem hcert.1 hcert.2.1 hcert.2.2.1).mpr hcert.2.2.2

def sampleItem (cls : SecDbClass) (agrp : String) : SecDbItem where
  cls := cls
  attributes := fun
    | .v6agrp => some (.string (cfstr agrp))
    | .v6pdmn => some (.string kSecAttrAccessibleWhenUnlocked)
    | .v6sync => some (.number 1)
    | _ => none
  holds := by
    intro attr value hvalue
    cases attr <;> simp at hvalue <;> subst hvalue <;> simp [SecDbAttr.kind, SecDbAttrKind.Holds]

theorem sampleItem_synced (cls : SecDbClass) (agrp : String) (hcls : cls ∈ dsSyncedClasses) :
    (sampleItem cls agrp).SyncedByDefault where
  cls := hcls
  sync := rfl
  accessible := ⟨kSecAttrAccessibleWhenUnlocked, by decide, rfl⟩
  viewHint := .inl rfl
  token := .inl rfl

theorem objectWithView_agrees_iff_sample :
    (sampleItem .cert "apple").SyncedByDefault ∧
      ∀ view, view ∈ SOSEngineObjectWithView (sampleItem .cert "apple") ↔
        SelectedForView id (sampleItem .cert "apple") view := by
  have hitem := sampleItem_synced .cert "apple" (by decide)
  refine ⟨hitem, ?_⟩
  exact (objectWithView_agrees_iff id (sampleItem .cert "apple") hitem).mpr
    ⟨rfl, by decide, rfl, .inl rfl⟩

/-- A password is in the manifest of the first peers' view but is not sent there. -/
theorem objectWithView_disagrees_sample :
    (sampleItem .genp "apple").SyncedByDefault ∧
      ¬ ∀ view, view ∈ SOSEngineObjectWithView (sampleItem .genp "apple") ↔
        SelectedForView id (sampleItem .genp "apple") view := by
  have hitem := sampleItem_synced .genp "apple" (by decide)
  refine ⟨hitem, ?_⟩
  intro hagree
  exact keychainV0_not_mem hitem ((hagree _).mpr (selected_keychainV0 hitem (by decide)))
end SecurityFramework
