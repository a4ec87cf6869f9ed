import SecurityFramework.Library.NewestWins
import SecurityFramework.Library.Run
import SecurityFramework.Securityd.ObjectMerge

/-! # Devices converge -/

namespace SecurityFramework
open NewestWins

theorem cfDataCompareDERData_eq_lt {left right : List UInt8} :
    cfDataCompareDERData left right = .lt ↔ left.map UInt8.toNat < right.map UInt8.toNat := by
  induction left generalizing right with
  | nil =>
    cases right with
    | nil | cons r rights => simp [cfDataCompareDERData]
  | cons l lefts ih =>
    cases right with
    | nil => simp [cfDataCompareDERData]
    | cons r rights =>
      rw [cfDataCompareDERData, List.map_cons, List.map_cons, List.cons_lt_cons_iff]
      split_ifs with hlt hgt
      · simp [UInt8.lt_iff_toNat_lt.1 hlt]
      · have hgt' := UInt8.lt_iff_toNat_lt.1 hgt
        simp only [false_iff]
        omega
      · have heq : l.toNat = r.toNat := by
          rw [UInt8.lt_iff_toNat_lt] at hlt hgt
          omega
        rw [ih, heq]
        simp

section
variable {κ α : Type*} (env : KeychainEnvironment) (cls : KeychainClass κ α)

def digestRank (primaryKey : κ) (date : ℚ) (content : Bool × α) : List ℕ :=
  (cls.digest primaryKey date content.1 content.2).map UInt8.toNat

def KeychainItem.state (item : KeychainItem κ α) : ℚ × (Bool × α) :=
  (item.getModificationDate env, item.tomb, item.contents)

variable {k : κ} {p q : ℚ × (Bool × α)} {obj : KeychainItem κ α} {table : KeychainTable κ α}

theorem choosesFirst_iff {item1 item2 : KeychainItem κ α} (h1 : item1.primaryKey = k)
    (h2 : item2.primaryKey = k) :
    choosesFirst env cls item1 item2 = true ↔
      Beats (digestRank cls k) (item1.state env) (item2.state env) := by
  unfold choosesFirst Beats KeychainItem.state digestRank
  simp only
  rw [← h1]
  split_ifs with hlater hearlier
  · simp [hlater]
  · simp [not_lt.2 hearlier.le, hearlier.ne]
  · have heq : item1.getModificationDate env = item2.getModificationDate env :=
      le_antisymm (not_lt.1 hlater) (not_lt.1 hearlier)
    simp only [heq, lt_irrefl, false_or, true_and]
    rw [← cfDataCompareDERData_eq_lt]
    unfold KeychainItem.getSHA1
    rw [h1, h2, heq]
    split <;> simp_all

theorem preserveLocalAttributes_eq (item1 item2 : KeychainItem κ α) :
    ∃ uuid ref values, preserveLocalAttributes env item1 item2 =
      { item1 with itemuuid := uuid, itempersistentref := ref, cannotSync := values } := by
  unfold preserveLocalAttributes
  split_ifs <;> exact ⟨_, _, _, rfl⟩

theorem mergeDuplicate_eq {peersItem myItem : KeychainItem κ α} (hpeer : peersItem.primaryKey = k)
    (hmine : myItem.primaryKey = k) :
    mergeDuplicate env cls peersItem myItem = .newItem (preserveLocalAttributes env peersItem myItem) ∧
        Beats (digestRank cls k) (peersItem.state env) (myItem.state env) ∧
        peersItem.getSHA1 env cls ≠ myItem.getSHA1 env cls ∨
      mergeDuplicate env cls peersItem myItem = .keep ∧
        ¬(Beats (digestRank cls k) (peersItem.state env) (myItem.state env) ∧
          peersItem.getSHA1 env cls ≠ myItem.getSHA1 env cls) := by
  rw [← choosesFirst_iff env cls hpeer hmine]
  have hdigest : (preserveLocalAttributes env peersItem myItem).getSHA1 env cls =
      peersItem.getSHA1 env cls := by
    rcases preserveLocalAttributes_eq env peersItem myItem with ⟨uuid, ref, values, heq⟩
    rw [heq]
    rfl
  unfold mergeDuplicate secItemDataSourceCopyMergedItem
  by_cases hfirst : choosesFirst env cls peersItem myItem = true
  · simp only [hfirst, if_true, hdigest, true_and]
    by_cases hsame : peersItem.getSHA1 env cls = myItem.getSHA1 env cls
    · right
      rw [if_pos hsame]
      exact ⟨rfl, fun h => h hsame⟩
    · left
      rw [if_neg hsame]
      exact ⟨rfl, hsame⟩
  · right
    simp only [hfirst]
    exact ⟨rfl, fun h => Bool.false_ne_true h.1⟩

def digestOf (k : κ) (p : ℚ × (Bool × α)) : List UInt8 := cls.digest k p.1 p.2.1 p.2.2

/-- The peer's content replaces one that it beats and that has another digest. -/
def Replaces (k : κ) (p q : ℚ × (Bool × α)) : Prop :=
  Beats (digestRank cls k) p q ∧ digestOf cls k p ≠ digestOf cls k q

theorem state_eq {item : KeychainItem κ α} (hdate : item.modificationDate = some p.1)
    (hcontent : (item.tomb, item.contents) = p.2) :
    item.state env = p := by
  unfold KeychainItem.state KeychainItem.getModificationDate
  rw [hdate, Option.getD_some, hcontent]

theorem getSHA1_eq {item : KeychainItem κ α} (hkey : item.primaryKey = k) :
    item.getSHA1 env cls = digestOf cls k (item.state env) := by
  rw [← hkey]
  rfl

theorem prepareObject_eq (obj : KeychainItem κ α) :
    ∃ ref, prepareObject env obj = obj.setPersistentRef ref := by
  unfold prepareObject
  split_ifs
  · exact ⟨_, rfl⟩
  · exact ⟨obj.itempersistentref, rfl⟩

theorem mergeDuplicate_prepared {myItem : KeychainItem κ α} (hkey : obj.primaryKey = k)
    (hdate : obj.modificationDate = some p.1) (hcontent : (obj.tomb, obj.contents) = p.2)
    (hmine : myItem.primaryKey = k) (hstate : myItem.state env = q) :
    mergeDuplicate env cls ((prepareObject env obj).dated env) myItem =
        .newItem (preserveLocalAttributes env ((prepareObject env obj).dated env) myItem) ∧
        Replaces cls k p q ∨
      mergeDuplicate env cls ((prepareObject env obj).dated env) myItem = .keep ∧
        ¬Replaces cls k p q := by
  have hpeer : ((prepareObject env obj).dated env).primaryKey = k ∧
      ((prepareObject env obj).dated env).state env = p := by
    rcases prepareObject_eq env obj with ⟨ref, heq⟩
    rw [heq]
    have hstate : obj.state env = p := state_eq env hdate hcontent
    exact ⟨hkey, hstate⟩
  have h := mergeDuplicate_eq env cls hpeer.1 hmine
  rw [getSHA1_eq env cls hpeer.1, getSHA1_eq env cls hmine, hpeer.2, hstate] at h
  exact h

variable [DecidableEq κ]

/-- A keychain holds one readable item with a primary key, with a date and a content. -/
def Holds (k : κ) (table : KeychainTable κ α) (p : ℚ × (Bool × α)) : Prop :=
  table.Valid ∧ ∃ row, table.find k = some row ∧ row.state = .readable ∧
    row.item.modificationDate = some p.1 ∧ (row.item.tomb, row.item.contents) = p.2

theorem insertOrReplace_prepared {row : KeychainRow κ α} (hkey : obj.primaryKey = k)
    (hfind : table.find k = some row) (hstate : row.state = .readable) :
    table.insertOrReplace env (prepareObject env obj) (mergeDuplicate env cls) =
      table.replaceDuplicate env row.item false
        (mergeDuplicate env cls ((prepareObject env obj).dated env) row.item) := by
  apply KeychainTable.insertOrReplace_of_find env _ hstate
  rcases prepareObject_eq env obj with ⟨ref, heq⟩
  rw [heq]
  rw [← hkey] at hfind
  exact hfind

theorem dsMergeObject_keeps (hholds : Holds k table q) (hkey : obj.primaryKey = k)
    (hdate : obj.modificationDate = some p.1) (hcontent : (obj.tomb, obj.contents) = p.2)
    (hnot : ¬Replaces cls k p q) : (dsMergeObject env cls table obj).2 = table := by
  rcases hholds with ⟨hvalid, row, hfind, hreadable, hrowDate, hrowContent⟩
  have hmine := (KeychainTable.find_eq_some hfind).2
  have hmerge := mergeDuplicate_prepared env cls hkey hdate hcontent hmine
    (state_eq env hrowDate hrowContent)
  have hkeep := (hmerge.resolve_left fun h => hnot h.2).1
  change (table.insertOrReplace env _ _).getD table = table
  rw [insertOrReplace_prepared env cls hkey hfind hreadable, hkeep]
  rfl

theorem dsMergeObject_replaces (hholds : Holds k table q) (hkey : obj.primaryKey = k)
    (hdate : obj.modificationDate = some p.1) (hcontent : (obj.tomb, obj.contents) = p.2)
    (hreplaces : Replaces cls k p q) :
    Holds k (dsMergeObject env cls table obj).2 (overwrite (1 / 1000) p q) := by
  rcases hholds with ⟨hvalid, row, hfind, hreadable, hrowDate, hrowContent⟩
  rcases KeychainTable.find_eq_some hfind with ⟨hrow, hmine⟩
  have hmerge := mergeDuplicate_prepared env cls hkey hdate hcontent hmine
    (state_eq env hrowDate hrowContent)
  have hnew := (hmerge.resolve_right fun h => h.2 hreplaces).1
  rcases prepareObject_eq env obj with ⟨ref, hprepared⟩
  rcases preserveLocalAttributes_eq env ((prepareObject env obj).dated env) row.item
    with ⟨uuid, ref', values, hmerged⟩
  generalize preserveLocalAttributes env ((prepareObject env obj).dated env) row.item = merged
    at hnew hmerged
  rw [hprepared] at hmerged
  have hmergedKey : merged.primaryKey = row.item.primaryKey := by
    rw [hmerged, hmine]
    exact hkey
  have hmergedDate : merged.getModificationDate env = p.1 := by
    rw [hmerged]
    have hstate : obj.state env = p := state_eq env hdate hcontent
    exact congrArg Prod.fst hstate
  have hmergedContent : (merged.tomb, merged.contents) = p.2 := by
    rw [hmerged]
    exact hcontent
  have hrowDate' : row.item.getModificationDate env = q.1 :=
    congrArg Prod.fst (state_eq env hrowDate hrowContent)
  have hresult : (dsMergeObject env cls table obj).2 =
      (table.replaceRow row.item.rowid
        (KeychainTable.replacing env row.item false merged)).recordUpdate (some row.item)
          (some (KeychainTable.replacing env row.item false merged)) := by
    change (table.insertOrReplace env _ _).getD table = _
    rw [insertOrReplace_prepared env cls hkey hfind hreadable, hnew,
      hvalid.keyed.replaceDuplicate_newItem env hrow hmergedKey false, Option.getD_some]
  have hwrittenDate := KeychainTable.replacing_modificationDate env row.item merged
  rcases KeychainTable.replacing_eq env row.item false merged with ⟨ref'', date, hwritten⟩
  generalize KeychainTable.replacing env row.item false merged = item
    at hresult hwritten hwrittenDate
  have hitemKey : item.primaryKey = row.item.primaryKey := by
    rw [hwritten]
    exact hmergedKey
  have hitemRowid : item.rowid = row.item.rowid := by
    rw [hwritten]
  have hitemDate : item.modificationDate.isSome := by
    rw [hwrittenDate]
    rfl
  rw [hresult]
  refine ⟨(hvalid.replaceRow hrow hitemKey hitemRowid hitemDate).recordUpdate _ _,
    ⟨item, .readable⟩, ?_, rfl, ?_, ?_⟩
  · rw [← hmine]
    exact hvalid.find_replaceRow hrow hitemKey hitemRowid hitemDate
  · rw [hwrittenDate, hmergedDate, hrowDate']
    rfl
  · rw [hwritten]
    exact hmergedContent

theorem Holds.unique {table' : KeychainTable κ α} {p' : ℚ × (Bool × α)} (h : Holds k table p)
    (h' : Holds k table' p') (hrows : table'.rows = table.rows) :
    p = p' := by
  rcases h with ⟨-, row, hfind, -, hdate, hcontent⟩
  rcases h' with ⟨-, row', hfind', -, hdate', hcontent'⟩
  have hsame : some row = some row' := by
    rw [← hfind, ← hfind', KeychainTable.find, KeychainTable.find, hrows]
  cases hsame
  rw [hdate, Option.some.injEq] at hdate'
  rw [hcontent] at hcontent'
  exact Prod.ext hdate' hcontent'

structure Delivery (D : Type*) where
  sender : D
  receiver : D
  env : KeychainEnvironment

variable {D : Type*} [DecidableEq D]

def deliver (k : κ) (s : D → KeychainTable κ α) (d : Delivery D) :
    Option (D → KeychainTable κ α) :=
  if d.sender = d.receiver then none
  else
    match (s d.sender).find k with
    | none => none
    | some row =>
      some (Function.update s d.receiver
        (dsMergeObject d.env cls (s d.receiver) (objectCopyPropertyList row.item)).2)

def ChangesReceiver (k : κ) (s : D → KeychainTable κ α) (d : Delivery D) : Prop :=
  ∃ s', deliver cls k s d = some s' ∧ (s' d.receiver).rows ≠ (s d.receiver).rows

def Settled (k : κ) (s : D → KeychainTable κ α) : Prop :=
  ∀ d, ¬ChangesReceiver cls k s d

open Classical in
noncomputable def effectiveMerges (k : κ) (s : D → KeychainTable κ α) : List (Delivery D) → ℕ
  | [] => 0
  | d :: ds =>
    match deliver cls k s d with
    | none => 0
    | some s' => (if ChangesReceiver cls k s d then 1 else 0) + effectiveMerges k s' ds

variable {cls}

variable {s : D → KeychainTable κ α} {v : D → ℚ × (Bool × α)}

theorem deliver_cases {s' : D → KeychainTable κ α} {d : Delivery D}
    (hholds : ∀ x, Holds k (s x) (v x)) (hdeliver : deliver cls k s d = some s') :
    (Replaces cls k (v d.sender) (v d.receiver) ∧ ChangesReceiver cls k s d ∧
      ∀ x, Holds k (s' x)
        (Function.update v d.receiver (overwrite (1 / 1000) (v d.sender) (v d.receiver)) x)) ∨
    ¬Replaces cls k (v d.sender) (v d.receiver) ∧ s' = s ∧ ¬ChangesReceiver cls k s d := by
  have hresult := hdeliver
  rcases (hholds d.sender).2 with ⟨row, hfind, -, hdate, hcontent⟩
  have hkey : (objectCopyPropertyList row.item).primaryKey = k :=
    (KeychainTable.find_eq_some hfind).2
  have hdate' : (objectCopyPropertyList row.item).modificationDate = some (v d.sender).1 := hdate
  have hcontent' : ((objectCopyPropertyList row.item).tomb,
      (objectCopyPropertyList row.item).contents) = (v d.sender).2 := hcontent
  unfold deliver at hresult
  split_ifs at hresult with hself
  simp only [hfind, Option.some.injEq] at hresult
  by_cases hreplaces : Replaces cls k (v d.sender) (v d.receiver)
  · left
    have hreceiver := dsMergeObject_replaces d.env cls (hholds d.receiver) hkey hdate' hcontent'
      hreplaces
    have hs' : s' d.receiver = (dsMergeObject d.env cls (s d.receiver)
        (objectCopyPropertyList row.item)).2 := by
      rw [← hresult, Function.update_self]
    refine ⟨hreplaces, ⟨s', hdeliver, ?_⟩, ?_⟩
    · intro hrows
      rw [hs'] at hrows
      have heq := (hholds d.receiver).unique hreceiver hrows
      have hlt : (v d.receiver).1 <
          (overwrite (1 / 1000) (v d.sender) (v d.receiver)).1 := lt_overwrite (by norm_num)
      rw [← heq] at hlt
      exact lt_irrefl _ hlt
    · intro x
      by_cases hx : x = d.receiver
      · rw [hx, Function.update_self, hs']
        exact hreceiver
      · rw [← hresult, Function.update_of_ne hx, Function.update_of_ne hx]
        exact hholds x
  · right
    have hkeeps := dsMergeObject_keeps d.env cls (hholds d.receiver) hkey hdate' hcontent'
      hreplaces
    rw [hkeeps, Function.update_eq_self] at hresult
    refine ⟨hreplaces, hresult.symm, ?_⟩
    rintro ⟨s'', hdeliver', hne⟩
    rw [hdeliver, Option.some.injEq] at hdeliver'
    rw [← hdeliver', ← hresult] at hne
    exact hne rfl

theorem exists_deliver (hholds : ∀ x, Holds k (s x) (v x)) {x y : D} (hne : x ≠ y)
    (env : KeychainEnvironment) :
    ∃ s', deliver cls k s ⟨x, y, env⟩ = some s' := by
  rcases (hholds x).2 with ⟨row, hfind, -⟩
  unfold deliver
  rw [if_neg hne]
  simp only [hfind]
  exact ⟨_, rfl⟩

section
variable [Fintype D]

/-- After a run the devices hold what merges from the start can reach, and the effective merges
have used up dates. -/
theorem run_deliver {k : κ} {start : D → ℚ × (Bool × α)} {s' : D → KeychainTable κ α}
    {ds : List (Delivery D)} (hrun : Run (deliver cls k) (fun _ _ => True) s ds s')
    (hholds : ∀ x, Holds k (s x) (v x))
    (hreaches : ∀ y, Reaches (1 / 1000) (digestRank cls k) start v y) :
    ∃ w, (∀ x, Holds k (s' x) (w x)) ∧
      (∀ y, Reaches (1 / 1000) (digestRank cls k) start w y) ∧
      effectiveMerges cls k s ds + remaining (1 / 1000) start w ≤ remaining (1 / 1000) start v := by
  have hstep : (0 : ℚ) < 1 / 1000 := by norm_num
  induction hrun generalizing v with
  | nil s => exact ⟨v, hholds, hreaches, by simp [effectiveMerges]⟩
  | cons _ hdeliver hrest ih =>
    rename_i s s₁ s₂ d ds
    rcases deliver_cases hholds hdeliver with ⟨hreplaces, hchanges, hholds'⟩ | ⟨-, rfl, hnot⟩
    · have hmerge : Merge (1 / 1000 : ℚ) (digestRank cls k) v _ := Merge.copy hreplaces.1
      rcases ih hholds' (hmerge.reaches hstep hreaches) with ⟨w, hw, hwReaches, hcount⟩
      have hless := hmerge.remaining_lt hstep hreaches
      refine ⟨w, hw, hwReaches, ?_⟩
      simp only [effectiveMerges, hdeliver, hchanges, if_true]
      omega
    · rcases ih hholds hreaches with ⟨w, hw, hwReaches, hcount⟩
      refine ⟨w, hw, hwReaches, ?_⟩
      simp only [effectiveMerges, hdeliver, hnot, if_false]
      omega

theorem exists_settled {k : κ} {start : D → ℚ × (Bool × α)} (hholds : ∀ x, Holds k (s x) (v x))
    (hreaches : ∀ y, Reaches (1 / 1000) (digestRank cls k) start v y) :
    ∃ ds s', Run (deliver cls k) (fun _ _ => True) s ds s' ∧ Settled cls k s' := by
  have hstep : (0 : ℚ) < 1 / 1000 := by norm_num
  induction hn : remaining (1 / 1000) start v using Nat.strong_induction_on
    generalizing s v with
  | _ n ih =>
    by_cases hsettled : Settled cls k s
    · exact ⟨[], s, Run.nil s, hsettled⟩
    · simp only [Settled, not_forall, not_not] at hsettled
      rcases hsettled with ⟨d, hchanges⟩
      have hsome := hchanges
      rcases hsome with ⟨s', hdeliver, -⟩
      rcases deliver_cases hholds hdeliver with ⟨hreplaces, -, hholds'⟩ | ⟨-, -, hnot⟩
      · have hmerge : Merge (1 / 1000 : ℚ) (digestRank cls k) v _ := Merge.copy hreplaces.1
        have hless := hmerge.remaining_lt hstep hreaches
        rcases ih _ (hn ▸ hless) hholds' (hmerge.reaches hstep hreaches) rfl
          with ⟨ds, s'', hrun, hsettled'⟩
        exact ⟨d :: ds, s'', Run.cons trivial hdeliver hrun, hsettled'⟩
      · exact absurd hchanges hnot
end

omit [DecidableEq κ] in
theorem digestOf_eq_of_not_replaces (hpq : ¬Replaces cls k p q) (hqp : ¬Replaces cls k q p) :
    digestOf cls k p = digestOf cls k q := by
  by_contra hne
  have hnotpq : ¬Beats (digestRank cls k) p q := fun h => hpq ⟨h, hne⟩
  have hnotqp : ¬Beats (digestRank cls k) q p := fun h => hqp ⟨h, Ne.symm hne⟩
  rw [Beats, not_or, not_and] at hnotpq hnotqp
  have hdate : p.1 = q.1 := le_antisymm (not_lt.1 hnotpq.1) (not_lt.1 hnotqp.1)
  have hrank : digestRank cls k p.1 p.2 = digestRank cls k q.1 q.2 :=
    le_antisymm (not_lt.1 (hnotqp.2 hdate.symm)) (not_lt.1 (hnotpq.2 hdate))
  exact hne (List.map_injective_iff.2 (fun _ _ h => UInt8.toNat_inj.1 h) hrank)

theorem Settled.digestOf_eq (hsettled : Settled cls k s) (hholds : ∀ x, Holds k (s x) (v x))
    (x y : D) :
    digestOf cls k (v x) = digestOf cls k (v y) := by
  by_cases hxy : x = y
  · rw [hxy]
  · have hnot : ∀ x y, x ≠ y → ¬Replaces cls k (v x) (v y) := by
      intro x y hne hreplaces
      rcases exists_deliver hholds hne ⟨0, false, false, [], []⟩ with ⟨s', hdeliver⟩
      have hfixed := hsettled ⟨x, y, ⟨0, false, false, [], []⟩⟩
      rcases deliver_cases hholds hdeliver with ⟨-, hchanges, -⟩ | ⟨hnot, -⟩
      · exact hfixed hchanges
      · exact hnot hreplaces
    exact digestOf_eq_of_not_replaces (hnot x y hxy) (hnot y x (Ne.symm hxy))

theorem exists_deliver_replaces (hholds : ∀ x, Holds k (s x) (v x)) {x y : D} (hne : x ≠ y)
    (hreplaces : Replaces cls k (v x) (v y)) :
    ∃ d s', deliver cls k s d = some s' ∧ ∀ z, Holds k (s' z)
      (Function.update v y (overwrite (1 / 1000) (v x) (v y)) z) := by
  rcases exists_deliver hholds hne ⟨0, false, false, [], []⟩ with ⟨s', hdeliver⟩
  rcases deliver_cases hholds hdeliver with ⟨-, -, hholds'⟩ | ⟨hnot, -⟩
  · exact ⟨_, s', hdeliver, hholds'⟩
  · exact absurd hreplaces hnot

theorem settled_of_same (hholds : ∀ x, Holds k (s x) p) :
    Settled cls k s := by
  rintro d hchanges
  have hsome := hchanges
  rcases hsome with ⟨s', hdeliver, -⟩
  rcases deliver_cases hholds hdeliver with ⟨hreplaces, -⟩ | ⟨-, -, hnot⟩
  · exact hreplaces.2 rfl
  · exact hnot hchanges

variable (cls) in
/-- Of two contents with one date, the one with the smaller digest is copied with a date one
millisecond later, and then wins over a content that was half a millisecond later. -/
theorem older_content_wins {x y z : D} (hxy : x ≠ y) (hxz : x ≠ z) (hyz : y ≠ z)
    (hall : ∀ w, w = x ∨ w = y ∨ w = z) (hholds : ∀ w, Holds k (s w) (v w))
    (hdate : (v x).1 = (v y).1) (hlater : (v z).1 = (v x).1 + 1 / 2000)
    (hrank : digestRank cls k (v x).1 (v x).2 < digestRank cls k (v y).1 (v y).2)
    (hnex : digestOf cls k ((v x).1 + 1 / 1000, (v x).2) ≠ digestOf cls k (v x))
    (hnez : digestOf cls k ((v x).1 + 1 / 1000, (v x).2) ≠ digestOf cls k (v z)) :
    ∃ ds s', Run (deliver cls k) (fun _ _ => True) s ds s' ∧ Settled cls k s' ∧
      ∀ w, Holds k (s' w) ((v x).1 + 1 / 1000, (v x).2) := by
  have hreplaces : Replaces cls k (v x) (v y) := by
    refine ⟨Or.inr ⟨hdate, hrank⟩, fun heq => ?_⟩
    have hsame : digestRank cls k (v x).1 (v x).2 = digestRank cls k (v y).1 (v y).2 :=
      congrArg (List.map UInt8.toNat) heq
    rw [hsame] at hrank
    exact lt_irrefl _ hrank
  have htie : overwrite (1 / 1000) (v x) (v y) = ((v x).1 + 1 / 1000, (v x).2) := by
    unfold overwrite
    rw [if_neg (by rw [hdate]; exact lt_irrefl _), hdate]
  have hcopy : ∀ q : ℚ × (Bool × α), q.1 < (v x).1 + 1 / 1000 →
      overwrite (1 / 1000) ((v x).1 + 1 / 1000, (v x).2) q = ((v x).1 + 1 / 1000, (v x).2) := by
    intro q hlt
    unfold overwrite
    rw [if_pos hlt]
  have hltx : (v x).1 < (v x).1 + 1 / 1000 := lt_add_of_pos_right _ (by norm_num)
  have hltz : (v z).1 < (v x).1 + 1 / 1000 := by
    rw [hlater, add_lt_add_iff_left]
    norm_num
  -- the tie, and the copies to the other two
  rcases exists_deliver_replaces hholds hxy hreplaces with ⟨d₁, s₁, hd₁, h₁⟩
  have hy₁ : Function.update v y (overwrite (1 / 1000) (v x) (v y)) y =
      ((v x).1 + 1 / 1000, (v x).2) := by
    rw [Function.update_self, htie]
  have hx₁ : Function.update v y (overwrite (1 / 1000) (v x) (v y)) x = v x :=
    Function.update_of_ne hxy _ _
  have hz₁ : Function.update v y (overwrite (1 / 1000) (v x) (v y)) z = v z :=
    Function.update_of_ne (Ne.symm hyz) _ _
  generalize Function.update v y (overwrite (1 / 1000) (v x) (v y)) = v₁ at h₁ hy₁ hx₁ hz₁
  have hreplaces₁ : Replaces cls k (v₁ y) (v₁ x) := by
    rw [hy₁, hx₁]
    exact ⟨Or.inl hltx, hnex⟩
  rcases exists_deliver_replaces h₁ (Ne.symm hxy) hreplaces₁ with ⟨d₂, s₂, hd₂, h₂⟩
  rw [hy₁, hx₁, hcopy _ hltx] at h₂
  have hy₂ : Function.update v₁ x ((v x).1 + 1 / 1000, (v x).2) y =
      ((v x).1 + 1 / 1000, (v x).2) := by
    rw [Function.update_of_ne (Ne.symm hxy), hy₁]
  have hz₂ : Function.update v₁ x ((v x).1 + 1 / 1000, (v x).2) z = v z := by
    rw [Function.update_of_ne (Ne.symm hxz), hz₁]
  have hx₂ : Function.update v₁ x ((v x).1 + 1 / 1000, (v x).2) x =
      ((v x).1 + 1 / 1000, (v x).2) :=
    Function.update_self _ _ _
  generalize Function.update v₁ x ((v x).1 + 1 / 1000, (v x).2) = v₂ at h₂ hx₂ hy₂ hz₂
  have hreplaces₂ : Replaces cls k (v₂ y) (v₂ z) := by
    rw [hy₂, hz₂]
    exact ⟨Or.inl hltz, hnez⟩
  rcases exists_deliver_replaces h₂ hyz hreplaces₂ with ⟨d₃, s₃, hd₃, h₃⟩
  rw [hy₂, hz₂, hcopy _ hltz] at h₃
  have hfinal : ∀ w, Holds k (s₃ w) ((v x).1 + 1 / 1000, (v x).2) := by
    intro w
    have hw := h₃ w
    rcases hall w with heq | heq | heq
    · rw [heq, Function.update_of_ne hxz, hx₂] at hw
      rw [heq]
      exact hw
    · rw [heq, Function.update_of_ne hyz, hy₂] at hw
      rw [heq]
      exact hw
    · rw [heq, Function.update_self] at hw
      rw [heq]
      exact hw
  exact ⟨[d₁, d₂, d₃], s₃,
    Run.cons trivial hd₁ (Run.cons trivial hd₂ (Run.cons trivial hd₃ (Run.nil s₃))),
    settled_of_same hfinal, hfinal⟩
end

def oneItem (date : ℚ) (content : Nat) : KeychainTable Unit Nat where
  rows := [⟨⟨some 1, (), some date, false, content, none, [], [], none⟩, .readable⟩]
  lastRowid := 1
  changes := []

theorem holds_oneItem (date : ℚ) (content : Nat) :
    Holds () (oneItem date content) (date, false, content) := by
  refine ⟨⟨?_, ?_, ?_, ?_, ?_⟩, _, rfl, rfl, rfl, rfl⟩ <;> simp [oneItem]

def numbered : KeychainClass Unit Nat where
  digest := fun _ date _ content => [UInt8.ofNat content, UInt8.ofNat date.den]
  uuidFromPrimaryKey := fun _ => []
  tombstoneContents := id

def threeDevices (x : Fin 3) : ℚ × (Bool × Nat) :=
  (if x = 2 then 1 / 2000 else 0, false, x)

section
variable {κ α : Type*} [DecidableEq κ] {cls : KeychainClass κ α} {k : κ} {p p' q : ℚ × (Bool × α)}
  {obj : KeychainItem κ α} {table : KeychainTable κ α}

/-- What has been merged does not win any more, whatever is merged after it. -/
theorem not_beats_dsMergeObject (env : KeychainEnvironment) (hholds : Holds k table q)
    (hkey : obj.primaryKey = k) (hdate : obj.modificationDate = some p.1)
    (hcontent : (obj.tomb, obj.contents) = p.2) (hnot : ¬Beats (digestRank cls k) p' q) :
    ∃ q', Holds k (dsMergeObject env cls table obj).2 q' ∧ ¬Beats (digestRank cls k) p' q' := by
  by_cases hreplaces : Replaces cls k p q
  · exact ⟨_, dsMergeObject_replaces env cls hholds hkey hdate hcontent hreplaces,
      not_beats_of_lt hnot (lt_overwrite (by norm_num))⟩
  · rw [dsMergeObject_keeps env cls hholds hkey hdate hcontent hreplaces]
    exact ⟨q, hholds, hnot⟩

end
end SecurityFramework
