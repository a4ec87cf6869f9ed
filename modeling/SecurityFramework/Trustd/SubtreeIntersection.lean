import SecurityFramework.Trustd.NameConstraintsVerdict

/-! # The intersection of permitted subtrees -/

namespace SecurityFramework.Trustd
open DER SecCEGeneralNameType

section
variable (der : LibDER) (strings : StringComparison)

/-- The comparison finds one subtree, as a name, to match the other. -/
def Inside (inner outer : DERDecodedInfo) : Prop :=
  ∃ item, generalName der outer.tag outer.content = some (nc_gn_type_convert inner.tag, item) ∧
    nc_compare strings der (nc_gn_type_convert inner.tag) inner.content item = some true

def Within (inner outer : DERItem) : Prop :=
  ∃ inner_content outer_content, der.decodeItem inner = .ok inner_content ∧
    der.decodeItem outer = .ok outer_content ∧ Inside der strings inner_content outer_content

def Comparable (subtree other : DERItem) : Prop :=
  Within der strings subtree other ∨ Within der strings other subtree

def FirstComparable (existing : List DERItem) (new_subtree : DERItem) (i : Nat) (old : DERItem) :
    Prop :=
  existing[i]? = some old ∧ Comparable der strings new_subtree old ∧
    ∀ j < i, ∀ other, existing[j]? = some other → ¬ Comparable der strings new_subtree other

def Covered (name : GeneralName) (subtrees : List DERItem) : Prop :=
  ∃ subtree ∈ subtrees, Matches der strings name subtree

/-- The name matches a subtree, if there is one of its type. -/
def Permits (subtrees : List DERItem) (name : GeneralName) : Prop :=
  (∃ subtree ∈ subtrees, SameType der name subtree) → Covered der strings name subtrees

/-- The step loses a name that nothing else holds, now or later: it replaces a subtree that has it by
one that has not, or drops the new subtree that has it. -/
def Loses (context : nc_intersect_context_t) (new_subtree : DERItem) (later : List DERItem)
    (name : GeneralName) : Prop :=
  ∃ i old, FirstComparable der strings context.existing_trees new_subtree i old ∧
    (Within der strings new_subtree old ∧ Matches der strings name old ∧
        ¬ Matches der strings name new_subtree ∧
        ¬ Covered der strings name
          (context.existing_trees.eraseIdx i ++ context.trees_to_add ++ later) ∨
      ¬ Within der strings new_subtree old ∧ Matches der strings name new_subtree ∧
        ¬ Covered der strings name (context.existing_trees ++ context.trees_to_add ++ later))

def Intersectable (subtree : DERItem) : Prop :=
  ∃ gnType item, (gnType = GNT_DirectoryName ∨ gnType = GNT_DNSName) ∧
    subtreeName der subtree = some (gnType, item)

def NoEmptyItem : Prop := ∀ content, der.decodeItem [] ≠ .ok content
end

section
variable {der : LibDER} {strings : StringComparison}

variable {name : GeneralName} {subtree old new_subtree : DERItem} {subtrees : List DERItem}
  {context : nc_intersect_context_t}

theorem convert_ite {p : Prop} [Decidable p] {yes no : OSStatus × Option GeneralName}
    {yes' no' : SecCEGeneralNameType} (hyes : yes.2 = some name → yes' = name.1)
    (hno : no.2 = some name → no' = name.1) :
    (if p then yes else no).2 = some name → (if p then yes' else no') = name.1 := by
  split_ifs
  · exact hyes
  · exact hno

/-- The type by which a subtree is merged is that of its name. -/
theorem convert_of_generalName {tag : Tag} {content : DERItem}
    (h : generalName der tag content = some name) : nc_gn_type_convert tag = name.1 := by
  have hpicked : ∀ gnType, some (gnType, content) = some name → gnType = name.1 := fun gnType heq =>
    congrArg Prod.fst (Option.some.inj heq)
  revert h
  rw [generalName, SecCertificateParseGeneralNameContentProperty, nc_gn_type_convert]
  iterate 6 refine convert_ite (hpicked _) ?_
  refine convert_ite ?_ ?_
  · cases der.decodeItem content with
    | error drtn =>
      intro h
      cases h
    | ok uriContent =>
      simp only
      split_ifs
      · intro h
        exact congrArg Prod.fst (Option.some.inj h)
      · intro h
        cases h
  iterate 3 refine convert_ite (hpicked _) ?_
  intro h
  cases h

theorem else_of_ite {α : Type} {p : Prop} [Decidable p] {yes no value : α} (hyes : yes ≠ value)
    (h : (if p then yes else no) = value) : no = value := by
  split_ifs at h
  · exact absurd h hyes
  · exact h

theorem generalName_of_convert {tag : Tag} (content : DERItem)
    (h : nc_gn_type_convert tag = GNT_DirectoryName ∨ nc_gn_type_convert tag = GNT_DNSName) :
    generalName der tag content = some (nc_gn_type_convert tag, content) := by
  have htag : tag = ASN1_CONTEXT_CONSTRUCTED 4 ∨ tag = ASN1_CONTEXT_SPECIFIC 2 := by
    by_contra hneither
    rw [not_or] at hneither
    rw [nc_gn_type_convert, if_neg hneither.1, if_neg hneither.2] at h
    rcases h with h | h
    · iterate 8 replace h := else_of_ite (by decide) h
      exact nomatch h
    · iterate 8 replace h := else_of_ite (by decide) h
      exact nomatch h
  rcases htag with rfl | rfl <;> rfl

theorem subtreeName_of_decode (hempty : NoEmptyItem der) {content : DERDecodedInfo}
    (hdecode : der.decodeItem subtree = .ok content) :
    subtreeName der subtree = generalName der content.tag content.content := by
  have hlength : 0 < subtree.length := by
    rw [List.length_pos_iff]
    rintro rfl
    exact hempty content hdecode
  rw [subtreeName, if_pos hlength, hdecode]

theorem Comparable.sameType (hempty : NoEmptyItem der)
    (hcomparable : Comparable der strings subtree old) {gnType : SecCEGeneralNameType}
    {item : DERItem} (htype : gnType = GNT_DirectoryName ∨ gnType = GNT_DNSName)
    (hname : subtreeName der old = some (gnType, item)) :
    ∃ item, subtreeName der subtree = some (gnType, item) := by
  rcases hcomparable with ⟨inner, outer, hinner, houter, item', hgeneral, -⟩ |
    ⟨inner, outer, hinner, houter, item', hgeneral, -⟩
  · rw [subtreeName_of_decode hempty houter, hgeneral] at hname
    have hconvert : nc_gn_type_convert inner.tag = gnType :=
      congrArg Prod.fst (Option.some.inj hname)
    rw [subtreeName_of_decode hempty hinner, ← hconvert]
    exact ⟨inner.content, generalName_of_convert inner.content (by rw [hconvert]; exact htype)⟩
  · rw [subtreeName_of_decode hempty hinner] at hname
    have hconvert : nc_gn_type_convert inner.tag = gnType := convert_of_generalName hname
    rw [subtreeName_of_decode hempty houter, ← hconvert]
    exact ⟨item', hgeneral⟩

variable (der strings) in
theorem succeeded_iff (tag : Tag) (content : DERItem) {found : match_t}
    (hfound : found.isMatch = false) (gnType : SecCEGeneralNameType) (item : DERItem) :
    let result := SecCertificateParseGeneralNameContentProperty der tag content found
      (nc_compare_subtree strings der gnType item)
    (succeeded result = true ↔ ∃ outer, generalName der tag content = some (gnType, outer) ∧
        nc_compare strings der gnType item outer = some true) ∧
      (succeeded result = result.2.isMatch) ∧ (succeeded result = true → result.2.present = true) := by
  intro result
  have hresult : result = callBack (nc_compare_subtree strings der gnType item) found
      (generalName der tag content) := parseGeneralNameContentProperty_eq _ _ _ _
  rw [hresult]
  cases generalName der tag content with
  | none => simp [callBack, succeeded, hfound]
  | some other =>
    by_cases htype : other.1 = gnType
    · have hother : ∀ outer, some other = some (gnType, outer) ↔ outer = other.2 := by
        intro outer
        rw [← htype, Option.some.injEq]
        exact ⟨fun heq => by rw [heq], fun heq => by rw [heq]⟩
      simp only [callBack, nc_compare_subtree, if_pos htype, hother, exists_eq_left]
      cases nc_compare strings der gnType item other.2 with
      | none | some isMatch => simp [succeeded, hfound]
    · have hother : ∀ outer, some other ≠ some (gnType, outer) := by
        intro outer heq
        exact htype (by rw [Option.some.inj heq])
      simp [callBack, nc_compare_subtree, htype, hother, succeeded, hfound]

theorem within_iff {inner outer : DERItem} {inner_content outer_content : DERDecodedInfo}
    (hinner : der.decodeItem inner = .ok inner_content)
    (houter : der.decodeItem outer = .ok outer_content) :
    Within der strings inner outer ↔ Inside der strings inner_content outer_content := by
  constructor
  · rintro ⟨content, content', hdecode, hdecode', hinside⟩
    rw [Except.ok.inj (hinner.symm.trans hdecode), Except.ok.inj (houter.symm.trans hdecode')]
    exact hinside
  · exact fun hinside => ⟨inner_content, outer_content, hinner, houter, hinside⟩

variable (strings) in
theorem find_subtree_cases {new_content : DERDecodedInfo}
    (hnew : der.decodeItem new_subtree = .ok new_content) (existing : List DERItem)
    (found : match_t) (hfound : found.isMatch = false) :
    let ended := nc_find_subtree strings der new_content existing found
    (ended.1 = existing.length ∧
        ∀ other ∈ existing, ¬ Comparable der strings new_subtree other) ∨
      ∃ old, FirstComparable der strings existing new_subtree ended.1 old ∧
        (ended.2.isMatch = true → ended.2.present = true) ∧
        (ended.2.isMatch = true ↔ Within der strings new_subtree old) := by
  induction existing generalizing found with
  | nil => exact Or.inl ⟨rfl, by simp⟩
  | cons candidate candidates ih =>
    simp only [nc_find_subtree]
    cases hcandidate : der.decodeItem candidate with
    | error drtn =>
      have hnot : ¬ Comparable der strings new_subtree candidate := by
        rintro (⟨-, outer, -, houter, -⟩ | ⟨inner, -, hinner, -⟩)
        · exact nomatch hcandidate.symm.trans houter
        · exact nomatch hcandidate.symm.trans hinner
      simp only
      rcases ih found hfound with ⟨hend, hnone⟩ | ⟨old, hfirst, hmatch⟩
      · exact Or.inl ⟨by rw [hend, List.length_cons], List.forall_mem_cons.mpr ⟨hnot, hnone⟩⟩
      · refine Or.inr ⟨old, ⟨hfirst.1, hfirst.2.1, fun j hj other hother => ?_⟩, hmatch⟩
        cases j with
        | zero => rwa [← Option.some.inj hother]
        | succ j => exact hfirst.2.2 j (by omega) other hother
    | ok candidate_content =>
      have hwithin := succeeded_iff der strings candidate_content.tag candidate_content.content
        hfound (nc_gn_type_convert new_content.tag) new_content.content
      have hundecided : (match_t.mk false false).isMatch = false := rfl
      have haround := succeeded_iff der strings new_content.tag new_content.content hundecided
        (nc_gn_type_convert candidate_content.tag) candidate_content.content
      have hinside : succeeded _ = true ↔ Within der strings new_subtree candidate :=
        hwithin.1.trans (within_iff hnew hcandidate).symm
      have houtside : succeeded _ = true ↔ Within der strings candidate new_subtree :=
        haround.1.trans (within_iff hcandidate hnew).symm
      simp only
      split_ifs with hin hout
      · refine Or.inr ⟨candidate, ⟨rfl, Or.inl (hinside.mp hin), by simp⟩, ?_, ?_⟩
        · exact fun _ => hwithin.2.2 hin
        · rw [← hwithin.2.1]
          exact hinside
      · refine Or.inr ⟨candidate, ⟨rfl, Or.inr (houtside.mp hout), by simp⟩, ?_, ?_⟩
        · intro hmatch
          rw [← hwithin.2.1] at hmatch
          exact absurd hmatch hin
        · rw [← hwithin.2.1]
          exact hinside
      · have hnot : ¬ Comparable der strings new_subtree candidate := by
          rintro (h | h)
          · exact hin (hinside.mpr h)
          · exact hout (houtside.mpr h)
        have hfound' : _ = false := hwithin.2.1.symm.trans (Bool.eq_false_iff.mpr hin)
        rcases ih _ hfound' with ⟨hend, hnone⟩ | ⟨old, hfirst, hmatch⟩
        · exact Or.inl ⟨by rw [hend, List.length_cons], List.forall_mem_cons.mpr ⟨hnot, hnone⟩⟩
        · refine Or.inr ⟨old, ⟨hfirst.1, hfirst.2.1, fun j hj other hother => ?_⟩, hmatch⟩
          cases j with
          | zero => rwa [← Option.some.inj hother]
          | succ j => exact hfirst.2.2 j (by omega) other hother

/-- What one step does. A subtree of another type is appended once more, whatever it is compared
with. -/
inductive Intersected (der : LibDER) (strings : StringComparison) (context : nc_intersect_context_t)
    (new_subtree : DERItem) : nc_intersect_context_t → Prop
  | unreadable (hunreadable : ∀ content, der.decodeItem new_subtree ≠ .ok content) :
      Intersected der strings context new_subtree context
  | appended {added : List DERItem}
      (hnone : ∀ other ∈ context.existing_trees, ¬ Comparable der strings new_subtree other)
      (hadded : ∀ subtree, subtree ∈ added ↔ subtree = new_subtree) :
      Intersected der strings context new_subtree
        ⟨context.existing_trees, context.trees_to_add ++ added⟩
  | replaced {i : Nat} {old : DERItem} {added : List DERItem}
      (hfirst : FirstComparable der strings context.existing_trees new_subtree i old)
      (hwithin : Within der strings new_subtree old)
      (hadded : ∀ subtree ∈ added, subtree = new_subtree)
      (htype : Intersectable der new_subtree → added = []) :
      Intersected der strings context new_subtree
        ⟨context.existing_trees.set i new_subtree, context.trees_to_add ++ added⟩
  | dropped {i : Nat} {old : DERItem} {added : List DERItem}
      (hfirst : FirstComparable der strings context.existing_trees new_subtree i old)
      (hwithin : ¬ Within der strings new_subtree old)
      (hadded : ∀ subtree ∈ added, subtree = new_subtree)
      (htype : Intersectable der new_subtree → added = []) :
      Intersected der strings context new_subtree
        ⟨context.existing_trees, context.trees_to_add ++ added⟩

variable (strings) in
theorem intersect_cases (hempty : NoEmptyItem der) (context : nc_intersect_context_t)
    (new_subtree : DERItem) :
    Intersected der strings context new_subtree
      (nc_intersect_tree_with_subtrees strings der context new_subtree) := by
  rw [nc_intersect_tree_with_subtrees]
  cases hnew : der.decodeItem new_subtree with
  | error drtn => exact .unreadable fun content h => nomatch hnew.symm.trans h
  | ok content =>
    have hother : ∃ added : List DERItem, (∀ subtree ∈ added, subtree = new_subtree) ∧
        (Intersectable der new_subtree → added = []) ∧
        (if ¬ (nc_gn_type_convert content.tag = GNT_DirectoryName ∨
            nc_gn_type_convert content.tag = GNT_DNSName) then
          context.trees_to_add ++ [new_subtree] else context.trees_to_add) =
          context.trees_to_add ++ added := by
      split_ifs with htype
      · exact ⟨[], by simp, fun _ => rfl, (List.append_nil _).symm⟩
      · refine ⟨[new_subtree], fun subtree => List.mem_singleton.mp, ?_, rfl⟩
        rintro ⟨gnType, item, hgnType, hname⟩
        rw [subtreeName_of_decode hempty hnew] at hname
        have hconvert : nc_gn_type_convert content.tag = gnType := convert_of_generalName hname
        exact absurd (by rw [hconvert]; exact hgnType) htype
    rcases hother with ⟨added, hadded, htype, heq⟩
    simp only
    rw [heq]
    rcases find_subtree_cases strings hnew context.existing_trees ⟨false, false⟩ rfl
      with ⟨hend, hnone⟩ | ⟨old, hfirst, hpresent, hmatch⟩
    · rw [if_pos hend, List.append_assoc]
      refine .appended hnone fun subtree => ?_
      rw [List.mem_append, List.mem_singleton]
      exact or_iff_right_of_imp (hadded subtree)
    · have hlt := (List.getElem?_eq_some_iff.mp hfirst.1).1
      rw [if_neg (Nat.ne_of_lt hlt)]
      by_cases hwithin : Within der strings new_subtree old
      · rw [if_pos (by rw [hmatch.mpr hwithin, hpresent (hmatch.mpr hwithin)]; rfl)]
        exact .replaced hfirst hwithin hadded htype
      · rw [if_neg (fun h => hwithin (hmatch.mp (Bool.and_eq_true_iff.mp h).2))]
        exact .dropped hfirst hwithin hadded htype

theorem FirstComparable.unique {existing : List DERItem} {old' : DERItem} {i i' : Nat}
    (h : FirstComparable der strings existing new_subtree i old)
    (h' : FirstComparable der strings existing new_subtree i' old') : i' = i ∧ old' = old := by
  have hi : i' = i := by
    rcases Nat.lt_trichotomy i i' with hlt | heq | hgt
    · exact absurd h.2.1 (h'.2.2 i hlt old h.1)
    · exact heq.symm
    · exact absurd h'.2.1 (h.2.2 i' hgt old' h'.1)
  subst hi
  exact ⟨rfl, Option.some.inj (h'.1.symm.trans h.1)⟩

theorem covered_append {more : List DERItem} :
    Covered der strings name (subtrees ++ more) ↔
      Covered der strings name subtrees ∨ Covered der strings name more := by
  simp [Covered, or_and_right, exists_or]

theorem covered_cons {more : List DERItem} :
    Covered der strings name (subtree :: more) ↔
      Matches der strings name subtree ∨ Covered der strings name more := by
  simp [Covered]

theorem covered_set {i : Nat} (hold : subtrees[i]? = some old) (new_subtree : DERItem) :
    Covered der strings name (subtrees.set i new_subtree) ↔
      Matches der strings name new_subtree ∨ Covered der strings name (subtrees.eraseIdx i) := by
  induction subtrees generalizing i with
  | nil => exact nomatch hold
  | cons subtree subtrees ih =>
    cases i with
    | zero => exact covered_cons
    | succ i =>
      rw [List.set_cons_succ, List.eraseIdx_cons_succ, covered_cons, covered_cons, ih hold]
      exact or_left_comm

theorem covered_get {i : Nat} (hold : subtrees[i]? = some old) :
    Covered der strings name subtrees ↔
      Matches der strings name old ∨ Covered der strings name (subtrees.eraseIdx i) := by
  have hset : subtrees.set i old = subtrees := by
    rcases List.getElem?_eq_some_iff.mp hold with ⟨hlt, rfl⟩
    exact List.set_getElem_self hlt
  rw [← covered_set hold old, hset]

def AllIntersectable (der : LibDER) (subtrees : List DERItem) : Prop :=
  ∀ subtree ∈ subtrees, Intersectable der subtree

theorem sameType_of_comparable (hempty : NoEmptyItem der) (hold : Intersectable der old)
    (hcomparable : Comparable der strings subtree old) (name : GeneralName) :
    SameType der name subtree ↔ SameType der name old := by
  rcases hold with ⟨gnType, item, htype, hname⟩
  rcases hcomparable.sameType hempty htype hname with ⟨item', hname'⟩
  have hiff : ∀ {item : DERItem}, (∃ found, some (gnType, item) = some (name.1, found)) ↔
      gnType = name.1 := by
    intro item
    constructor
    · rintro ⟨found, hfound⟩
      exact congrArg Prod.fst (Option.some.inj hfound)
    · rintro rfl
      exact ⟨item, rfl⟩
  rw [SameType, SameType, hname, hname', hiff, hiff]

theorem intersectable_of_comparable (hempty : NoEmptyItem der) (hold : Intersectable der old)
    (hcomparable : Comparable der strings subtree old) :
    Intersectable der subtree := by
  rcases hold with ⟨gnType, item, htype, hname⟩
  rcases hcomparable.sameType hempty htype hname with ⟨item', hname'⟩
  exact ⟨gnType, item', htype, hname'⟩

theorem FirstComparable.mem {existing : List DERItem} {i : Nat}
    (h : FirstComparable der strings existing new_subtree i old) : old ∈ existing :=
  List.mem_of_getElem? h.1

theorem allIntersectable_step (hempty : NoEmptyItem der)
    (hall : AllIntersectable der context.existing_trees) (new_subtree : DERItem) :
    AllIntersectable der
      (nc_intersect_tree_with_subtrees strings der context new_subtree).existing_trees := by
  have hstep := intersect_cases strings hempty context new_subtree
  generalize nc_intersect_tree_with_subtrees strings der context new_subtree = next at hstep ⊢
  cases hstep with
  | unreadable hunreadable | appended hnone hadded => exact hall
  | replaced hfirst hwithin hadded htype =>
    intro subtree hmem
    rcases List.mem_or_eq_of_mem_set hmem with hmem | rfl
    · exact hall subtree hmem
    · exact intersectable_of_comparable hempty (hall _ hfirst.mem) hfirst.2.1
  | dropped hfirst hwithin hadded htype => exact hall

theorem existing_sameType_step (hempty : NoEmptyItem der)
    (hall : AllIntersectable der context.existing_trees) (new_subtree : DERItem)
    (name : GeneralName) :
    (∃ subtree ∈ (nc_intersect_tree_with_subtrees strings der context new_subtree).existing_trees,
        SameType der name subtree) ↔
      ∃ subtree ∈ context.existing_trees, SameType der name subtree := by
  have hstep := intersect_cases strings hempty context new_subtree
  generalize nc_intersect_tree_with_subtrees strings der context new_subtree = next at hstep ⊢
  cases hstep with
  | unreadable hunreadable | appended hnone hadded => rfl
  | replaced hfirst hwithin hadded htype =>
    have hsame := sameType_of_comparable hempty (hall _ hfirst.mem) hfirst.2.1 name
    constructor
    · rintro ⟨subtree, hmem, htyped⟩
      rcases List.mem_or_eq_of_mem_set hmem with hmem | rfl
      · exact ⟨subtree, hmem, htyped⟩
      · exact ⟨_, hfirst.mem, hsame.mp htyped⟩
    · rintro ⟨subtree, hmem, htyped⟩
      rcases List.getElem?_eq_some_iff.mp hfirst.1 with ⟨hlt, hold⟩
      rcases List.mem_iff_getElem.mp hmem with ⟨j, hj, rfl⟩
      rename_i i old added
      by_cases hij : i = j
      · subst hij
        refine ⟨new_subtree, List.mem_set hlt _, hsame.mpr ?_⟩
        rwa [← hold]
      · refine ⟨context.existing_trees[j], ?_, htyped⟩
        refine List.mem_iff_getElem.mpr ⟨j, by rwa [List.length_set], ?_⟩
        exact List.getElem_set_ne hij _
  | dropped hfirst hwithin hadded htype => rfl

theorem mem_intersect_step (hempty : NoEmptyItem der) (context : nc_intersect_context_t)
    (new_subtree : DERItem)
    (h : subtree ∈ (nc_intersect_tree_with_subtrees strings der context new_subtree).existing_trees ++
      (nc_intersect_tree_with_subtrees strings der context new_subtree).trees_to_add) :
    subtree ∈ context.existing_trees ++ context.trees_to_add ∨ subtree = new_subtree := by
  revert h
  have hstep := intersect_cases strings hempty context new_subtree
  generalize nc_intersect_tree_with_subtrees strings der context new_subtree = next at hstep ⊢
  cases hstep with
  | unreadable hunreadable => exact Or.inl
  | appended hnone hadded =>
    intro h
    rw [← List.append_assoc, List.mem_append] at h
    exact h.imp_right (hadded subtree).mp
  | replaced hfirst hwithin hadded htype =>
    intro h
    simp only [List.mem_append] at h ⊢
    rcases h with h | h | h
    · exact (List.mem_or_eq_of_mem_set h).imp_left Or.inl
    · exact Or.inl (Or.inr h)
    · exact Or.inr (hadded subtree h)
  | dropped hfirst hwithin hadded htype =>
    intro h
    rw [← List.append_assoc, List.mem_append] at h
    exact h.imp_right (hadded subtree)

theorem not_covered_step (hempty : NoEmptyItem der) {later : List DERItem}
    (h : ¬ Covered der strings name
      (context.existing_trees ++ context.trees_to_add ++ new_subtree :: later)) :
    ¬ Covered der strings name
      ((nc_intersect_tree_with_subtrees strings der context new_subtree).existing_trees ++
        (nc_intersect_tree_with_subtrees strings der context new_subtree).trees_to_add ++
        later) := by
  rintro ⟨subtree, hmem, hmatch⟩
  refine h ⟨subtree, ?_, hmatch⟩
  rcases List.mem_append.mp hmem with hmem | hmem
  · rcases mem_intersect_step hempty context new_subtree hmem with hmem | rfl
    · exact List.mem_append_left _ hmem
    · exact List.mem_append_right _ List.mem_cons_self
  · exact List.mem_append_right _ (List.mem_cons_of_mem _ hmem)

theorem replaced_keeps_iff {hadOld hasOther added hasNew later : Prop}
    (h : ((hadOld ∨ hasOther) ∨ added) ∨ hasNew ∨ later) :
    ((hasNew ∨ hasOther) ∨ added) ∨ later ↔
      ¬ (hadOld ∧ ¬ hasNew ∧ ¬ ((hasOther ∨ added) ∨ later)) := by
  by_cases hNew : hasNew
  · exact iff_of_true (Or.inl (Or.inl (Or.inl hNew))) fun hlost => hlost.2.1 hNew
  · simp only [hNew, false_or] at h ⊢
    constructor
    · rintro hkept ⟨-, -, hlost⟩
      exact hlost hkept
    · intro hkept
      by_contra hlost
      rcases h with ((h | h) | h) | h
      · exact hkept ⟨h, not_false, hlost⟩
      · exact hlost (Or.inl (Or.inl h))
      · exact hlost (Or.inl (Or.inr h))
      · exact hlost (Or.inr h)

theorem dropped_keeps_iff {existing hasNew later : Prop} (h : existing ∨ hasNew ∨ later) :
    existing ∨ later ↔ ¬ (hasNew ∧ ¬ (existing ∨ later)) := by
  constructor
  · rintro hkept ⟨-, hlost⟩
    exact hlost hkept
  · intro hkept
    by_contra hlost
    rcases h with h | h | h
    · exact hlost (Or.inl h)
    · exact hkept ⟨h, hlost⟩
    · exact hlost (Or.inr h)

/-- A name that was covered stays so exactly if the step does not lose it. -/
theorem covered_step_iff (hempty : NoEmptyItem der)
    (hall : AllIntersectable der context.existing_trees) {later : List DERItem}
    (h : Covered der strings name
      (context.existing_trees ++ context.trees_to_add ++ new_subtree :: later)) :
    Covered der strings name
        ((nc_intersect_tree_with_subtrees strings der context new_subtree).existing_trees ++
          (nc_intersect_tree_with_subtrees strings der context new_subtree).trees_to_add ++
          later) ↔
      ¬ Loses der strings context new_subtree later name := by
  rw [covered_append, covered_append, covered_cons] at h
  have hstep := intersect_cases strings hempty context new_subtree
  generalize nc_intersect_tree_with_subtrees strings der context new_subtree = next at hstep ⊢
  cases hstep with
  | unreadable hunreadable =>
    have hnot : ¬ Matches der strings name new_subtree := by
      rintro ⟨item, hname, -⟩
      rw [subtreeName] at hname
      split_ifs at hname
      cases hdecode : der.decodeItem new_subtree with
      | error drtn =>
        rw [hdecode] at hname
        cases hname
      | ok content => exact hunreadable content hdecode
    rw [covered_append, covered_append]
    refine iff_of_true (h.imp_right fun hlater => hlater.resolve_left hnot) ?_
    rintro ⟨i, old, ⟨-, hcomparable, -⟩, -⟩
    rcases hcomparable with ⟨inner, outer, hinner, -⟩ | ⟨inner, outer, -, houter, -⟩
    · exact hunreadable inner hinner
    · exact hunreadable outer houter
  | appended hnone hadded =>
    simp only [covered_append]
    refine iff_of_true ?_ ?_
    · rcases h with (h | h) | h | h
      · exact Or.inl (Or.inl h)
      · exact Or.inl (Or.inr (Or.inl h))
      · exact Or.inl (Or.inr (Or.inr ⟨new_subtree, (hadded new_subtree).mpr rfl, h⟩))
      · exact Or.inr h
    · rintro ⟨i, old, hfirst, -⟩
      exact hnone old hfirst.mem hfirst.2.1
  | @replaced i old added hfirst hwithin hadded htype =>
    rw [htype (intersectable_of_comparable hempty (hall old hfirst.mem) hfirst.2.1),
      List.append_nil]
    rw [covered_get hfirst.1] at h
    simp only [covered_append, covered_set hfirst.1]
    have hloses : Loses der strings context new_subtree later name ↔
        Matches der strings name old ∧ ¬ Matches der strings name new_subtree ∧
          ¬ Covered der strings name
            (context.existing_trees.eraseIdx i ++ context.trees_to_add ++ later) := by
      constructor
      · rintro ⟨i', old', hfirst', hcase⟩
        rcases hfirst.unique hfirst' with ⟨rfl, rfl⟩
        rcases hcase with ⟨-, hlost⟩ | ⟨hnot, -⟩
        · exact hlost
        · exact absurd hwithin hnot
      · exact fun hlost => ⟨i, old, hfirst, Or.inl ⟨hwithin, hlost⟩⟩
    rw [hloses, covered_append, covered_append]
    exact replaced_keeps_iff h
  | @dropped i old added hfirst hwithin hadded htype =>
    rw [htype (intersectable_of_comparable hempty (hall old hfirst.mem) hfirst.2.1),
      List.append_nil]
    simp only [covered_append]
    have hloses : Loses der strings context new_subtree later name ↔
        Matches der strings name new_subtree ∧
          ¬ Covered der strings name (context.existing_trees ++ context.trees_to_add ++ later) := by
      constructor
      · rintro ⟨i', old', hfirst', hcase⟩
        rcases hfirst.unique hfirst' with ⟨rfl, rfl⟩
        rcases hcase with ⟨hnot, -⟩ | ⟨-, hlost⟩
        · exact absurd hnot hwithin
        · exact hlost
      · exact fun hlost => ⟨i, old, hfirst, Or.inr ⟨hwithin, hlost⟩⟩
    rw [hloses, covered_append, covered_append]
    exact dropped_keeps_iff h

/-- The contexts of the loop, one for each prefix of the new subtrees. -/
def afterSubtrees (der : LibDER) (strings : StringComparison) (context : nc_intersect_context_t)
    (subtrees_new : List DERItem) : nc_intersect_context_t :=
  subtrees_new.foldl (nc_intersect_tree_with_subtrees strings der) context

theorem not_covered_run (hempty : NoEmptyItem der) (subtrees_new : List DERItem)
    (h : ¬ Covered der strings name
      (context.existing_trees ++ context.trees_to_add ++ subtrees_new)) :
    ¬ Covered der strings name ((afterSubtrees der strings context subtrees_new).existing_trees ++
      (afterSubtrees der strings context subtrees_new).trees_to_add) := by
  induction subtrees_new generalizing context with
  | nil => rwa [List.append_nil] at h
  | cons new_subtree later ih => exact ih (not_covered_step hempty h)

variable (strings) in
/-- A name that was covered is so in the end exactly if no step loses it. -/
theorem covered_run_iff (hempty : NoEmptyItem der) (subtrees_new : List DERItem)
    (context : nc_intersect_context_t) (hall : AllIntersectable der context.existing_trees)
    (name : GeneralName)
    (h : Covered der strings name
      (context.existing_trees ++ context.trees_to_add ++ subtrees_new)) :
    Covered der strings name ((afterSubtrees der strings context subtrees_new).existing_trees ++
        (afterSubtrees der strings context subtrees_new).trees_to_add) ↔
      ∀ before new_subtree later, subtrees_new = before ++ new_subtree :: later →
        ¬ Loses der strings (afterSubtrees der strings context before) new_subtree later name := by
  induction subtrees_new generalizing context with
  | nil =>
    rw [List.append_nil] at h
    refine iff_of_true h fun before new_subtree later heq => ?_
    exact absurd heq.symm (by simp)
  | cons first subtrees_new ih =>
    have hstep := covered_step_iff hempty hall h
    by_cases hcovered : Covered der strings name
        ((nc_intersect_tree_with_subtrees strings der context first).existing_trees ++
          (nc_intersect_tree_with_subtrees strings der context first).trees_to_add ++
          subtrees_new)
    · have hkept := hstep.mp hcovered
      refine (ih _ (allIntersectable_step hempty hall first) hcovered).trans ?_
      constructor
      · rintro hrest (_ | ⟨head, before⟩) new_subtree later heq
        · rw [List.nil_append, List.cons.injEq] at heq
          rw [← heq.1, ← heq.2]
          exact hkept
        · rw [List.cons_append, List.cons.injEq] at heq
          rw [← heq.1]
          exact hrest before new_subtree later heq.2
      · intro hrun before new_subtree later heq
        exact hrun (first :: before) new_subtree later (by rw [heq, List.cons_append])
    · refine iff_of_false (not_covered_run hempty subtrees_new hcovered) fun hrun => ?_
      exact hcovered (hstep.mpr (hrun [] first subtrees_new rfl))

variable (strings) in
theorem existing_sameType_run (hempty : NoEmptyItem der) (subtrees_new : List DERItem)
    (context : nc_intersect_context_t) (hall : AllIntersectable der context.existing_trees)
    (name : GeneralName) :
    AllIntersectable der (afterSubtrees der strings context subtrees_new).existing_trees ∧
      ((∃ subtree ∈ (afterSubtrees der strings context subtrees_new).existing_trees,
          SameType der name subtree) ↔
        ∃ subtree ∈ context.existing_trees, SameType der name subtree) := by
  induction subtrees_new generalizing context with
  | nil => exact ⟨hall, Iff.rfl⟩
  | cons first subtrees_new ih =>
    have hnext := ih (nc_intersect_tree_with_subtrees strings der context first)
      (allIntersectable_step hempty hall first)
    exact ⟨hnext.1, hnext.2.trans (existing_sameType_step hempty hall first name)⟩

theorem mem_afterSubtrees (hempty : NoEmptyItem der) (subtrees_new : List DERItem)
    (h : subtree ∈ (afterSubtrees der strings context subtrees_new).existing_trees ++
      (afterSubtrees der strings context subtrees_new).trees_to_add) :
    subtree ∈ context.existing_trees ++ context.trees_to_add ∨ subtree ∈ subtrees_new := by
  induction subtrees_new generalizing context with
  | nil => exact Or.inl h
  | cons first subtrees_new ih =>
    rcases ih h with hmem | hmem
    · rcases mem_intersect_step hempty context first hmem with hmem | rfl
      · exact Or.inl hmem
      · exact Or.inr List.mem_cons_self
    · exact Or.inr (List.mem_cons_of_mem _ hmem)

theorem Loses.typed (hempty : NoEmptyItem der) (hall : AllIntersectable der context.existing_trees)
    {later : List DERItem} (h : Loses der strings context new_subtree later name) :
    (∃ subtree ∈ context.existing_trees, SameType der name subtree) ∧
      SameType der name new_subtree := by
  rcases h with ⟨i, old, hfirst, hcase⟩
  have hsame := sameType_of_comparable hempty (hall old hfirst.mem) hfirst.2.1 name
  rcases hcase with ⟨-, hmatch, -⟩ | ⟨-, hmatch, -⟩
  · exact ⟨⟨old, hfirst.mem, hmatch.sameType⟩, hsame.mpr hmatch.sameType⟩
  · exact ⟨⟨old, hfirst.mem, hsame.mp hmatch.sameType⟩, hmatch.sameType⟩

end

theorem sample_noEmptyItem : NoEmptyItem LibDER.sample := fun _ h => nomatch h

def domain : DERItem := [0x82, 0x01, 0x78]

def subdomain (letter : UInt8) : DERItem := [0x82, 0x03, letter, 0x2E, 0x78]

theorem domain_intersectable : AllIntersectable LibDER.sample [domain] := by
  intro subtree hmem
  rw [List.mem_singleton.mp hmem]
  exact ⟨GNT_DNSName, [0x78], Or.inr rfl, by decide +kernel⟩

end SecurityFramework.Trustd
