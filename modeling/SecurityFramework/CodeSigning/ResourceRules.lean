import Mathlib.Data.UInt

/-!
# Resource rules

The rules that say which files of a bundle are sealed, and how. They are read from a dictionary,
whose entries come in no particular order. Exclusions are put in front of them.

The compiled regular expressions, and what they match, are those of `regcomp` and `regexec`, which
has no answer when it fails.
-/

namespace SecurityFramework
inductive ResourceError
  | errSecCSResourceRulesInvalid
  | cfError
  deriving DecidableEq

/-- What an entry of the dictionary of a rule holds. A number is the `long long` that
`CFNumberGetValue` makes of it, where it can. -/
inductive RuleAttribute
  | boolean (value : Bool)
  | number (value : Option Int)
  | other

inductive RuleValue
  | boolean (value : Bool)
  | dictionary (attributes : List (String × RuleAttribute))
  | other

namespace ResourceBuilder
def «optional» : UInt32 := 0x01

def omitted : UInt32 := 0x02

def nested : UInt32 := 0x04

def exclusion : UInt32 := 0x10

def softTarget : UInt32 := 0x20

def user_controlled : UInt32 := 0x40

structure Rule (ρ : Type) where
  regex : ρ
  weight : UInt32
  flags : UInt32
  source : String

variable {ρ : Type} (regcomp : String → Option ρ) (regexec : ρ → String → Option Bool)

def Rule.create (pattern : String) (weight flags : UInt32) : Except ResourceError (Rule ρ) :=
  match regcomp pattern with
  | none => .error .errSecCSResourceRulesInvalid
  | some regex => .ok ⟨regex, weight, flags, pattern⟩

def Rule.match (rule : Rule ρ) (s : String) : Except ResourceError Bool :=
  match regexec rule.regex s with
  | none => .error .errSecCSResourceRulesInvalid
  | some found => .ok found

def getWeight (attributes : List (String × RuleAttribute)) : Except ResourceError UInt32 :=
  match attributes.lookup "weight" with
  | none => .ok 1
  | some (.number (some value)) => .ok (UInt32.ofNat (value % 2 ^ 32).toNat)
  | some (.number none) => .error .cfError
  | some _ => .error .errSecCSResourceRulesInvalid

def getFlag (attributes : List (String × RuleAttribute)) (key : String) (flag : UInt32) :
    Except ResourceError UInt32 :=
  match attributes.lookup key with
  | none => .ok 0
  | some (.boolean value) => .ok (if value then flag else 0)
  | some _ => .error .errSecCSResourceRulesInvalid

def addRule (pattern : String) : RuleValue → Except ResourceError (Rule ρ)
  | .boolean value =>
    let flags := if value then 0 else omitted
    Rule.create regcomp pattern 1 (flags ||| user_controlled)
  | .dictionary attributes => do
    let weight ← getWeight attributes
    let omitFlag ← getFlag attributes "omit" omitted
    let optFlag ← getFlag attributes "optional" «optional»
    let nestFlag ← getFlag attributes "nested" nested
    Rule.create regcomp pattern weight (omitFlag ||| optFlag ||| nestFlag ||| user_controlled)
  | .other => .error .errSecCSResourceRulesInvalid

def addRules : List (String × RuleValue) → Except ResourceError (List (Rule ρ))
  | [] => .ok []
  | (pattern, value) :: entries => do
    let rule ← addRule regcomp pattern value
    let mRules ← addRules entries
    return rule :: mRules

def addExclusion (mRules : List (Rule ρ)) (pattern : String) (flags : UInt32) :
    Except ResourceError (List (Rule ρ)) := do
  let rule ← Rule.create regcomp pattern 0 (exclusion ||| flags)
  return rule :: mRules

def build (rulesDict : List (String × RuleValue)) (exclusions : List (String × UInt32)) :
    Except ResourceError (List (Rule ρ)) := do
  let mRules ← addRules regcomp rulesDict
  exclusions.foldlM (fun mRules added => addExclusion regcomp mRules added.1 added.2) mRules

def heavier (bestRule : Option (Rule ρ)) (rule : Rule ρ) : Option (Rule ρ) :=
  match bestRule with
  | none => some rule
  | some best => if rule.weight > best.weight then some rule else some best

def findRuleFrom (path : String) : List (Rule ρ) → Option (Rule ρ) →
    Except ResourceError (Option (Rule ρ))
  | [], bestRule => .ok bestRule
  | rule :: mRules, bestRule => do
    if ← rule.match regexec path then
      if rule.flags &&& exclusion ≠ 0 then
        return some rule
      else
        findRuleFrom path mRules (heavier bestRule rule)
    else
      findRuleFrom path mRules bestRule

def findRule (mRules : List (Rule ρ)) (path : String) : Except ResourceError (Option (Rule ρ)) :=
  findRuleFrom regexec path mRules none

def firstDirectory (path : String) : Option String :=
  if '/' ∈ path.toList then some (String.ofList (path.toList.takeWhile (· ≠ '/'))) else none

def includesFull (mRules : List (Rule ρ)) (path : String) : Except ResourceError Bool := do
  match ← findRule regexec mRules path with
  | some rule =>
    return rule.flags &&& (omitted ||| exclusion) = 0 || rule.flags &&& softTarget ≠ 0
  | none => return false

def includes (mRules : List (Rule ρ)) (path : String) : Except ResourceError Bool := do
  match firstDirectory path with
  | none => includesFull regexec mRules path
  | some directory =>
    match ← findRule regexec mRules directory with
    | some rule =>
      if rule.flags &&& exclusion ≠ 0 then
        return rule.flags &&& softTarget ≠ 0
      else includesFull regexec mRules path
    | none => includesFull regexec mRules path
end ResourceBuilder
end SecurityFramework
