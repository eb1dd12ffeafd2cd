import CivicConnect.Library.Ranking
import CivicConnect.Triage.Keywords
import Mathlib.Data.List.Dedup

/-!
# The issue classifier

The classifier reads labels off the title of an issue: from a bracketed tag,
from a prefix and from keywords. It suggests only labels that the issue does
not have, and stays out of the tiers of one label that are taken.
-/

namespace CivicConnect.Triage

structure Rule where
  type : Option String := none
  metaLabel : Option String := none
  scope : Option String := none
  priority : Option String := none
  areas : List String := []
  deriving DecidableEq, Repr

/-- The rules of `label-classifier.json`; an object is the list of its entries. -/
structure Rules where
  prefixSplitOn : String
  titlePrefix : List (String × Rule)
  bracketTag : List (String × Rule)
  keywordArea : List (String × List String)
  keywordType : List (String × List String)
  metaSignal : List (String × List String)
  statusSignal : List (String × List String)
  scopeSignal : List (String × List String)
  tierOf : List (String × String)
  tierMax : List (String × Option ℕ)
  precedence : List (String × ℕ)
  types : List String

/-- The class `[[:space:]]`. -/
def isSpace (c : Char) : Bool :=
  c.toNat ∈ [9, 10, 11, 12, 13, 32, 0x85, 0xA0, 0x1680, 0x2028, 0x2029, 0x202F, 0x205F, 0x3000] ∨
    0x2000 ≤ c.toNat ∧ c.toNat ≤ 0x200A

/-- `ascii_downcase`, without white space around. -/
def norm (text : List Char) : List Char :=
  (((text.map fun c => if c.isUpper then c.toLower else c).dropWhile isSpace).reverse.dropWhile
    isSpace).reverse

def rulelabels (rule : Rule) : List String :=
  rule.type.toList ++ rule.metaLabel.toList ++ rule.scope.toList ++ rule.priority.toList ++
    rule.areas

/-- A bracketed tag at the start, and what follows it. -/
def leadingTag (text : List Char) : Option (List Char × List Char) :=
  match text.dropWhile isSpace with
  | '[' :: inner =>
      let tag := inner.takeWhile (· ≠ ']')
      if 1 ≤ tag.length ∧ tag.length ≤ 25 then
        match inner.dropWhile (· ≠ ']') with
        | ']' :: rest => some (tag, rest)
        | _ => none
      else none
  | _ => none

def bracket (rules : Rules) (text : List Char) : Option Rule × List Char :=
  match leadingTag text with
  | none => (none, text)
  | some (tag, rest) =>
      let key := norm ((norm tag).takeWhile (· ≠ '#'))
      (rules.bracketTag.lookup (String.ofList key), rest)

def isPrefixChar (c : Char) : Bool := c.isAlphanum ∨ c = '_' ∨ c = '.' ∨ c = '/' ∨ c = '-'

/-- What follows an optional scope in parentheses. -/
def afterScope (text : List Char) : List Char :=
  match text.dropWhile isSpace with
  | '(' :: inner =>
      match inner.dropWhile (· ≠ ')') with
      | ')' :: rest => rest
      | _ => text
  | _ => text

/-- A prefix that ends in a colon, at the start. -/
def leadingWord (text : List Char) : Option (List Char) :=
  let text := text.dropWhile isSpace
  let word := text.takeWhile isPrefixChar
  if word.head?.any Char.isAlpha ∧ 2 ≤ word.length ∧ word.length ≤ 25 ∧
      ((afterScope (text.drop word.length)).dropWhile isSpace).head? = some ':' then some word
  else none

def prefixrule (rules : Rules) (text : List Char) : Option Rule :=
  match leadingWord text with
  | none => none
  | some word =>
      let k := String.ofList (norm word)
      let key := if rules.prefixSplitOn = "" then k else (k.splitOn rules.prefixSplitOn).headD k
      rules.titlePrefix.lookup key

section

variable (folding : CaseFolding)

def signals (text : String) (sec : List (String × List String)) : List String :=
  (sec.filter fun entry => entry.2.any fun k => kwhit folding k text).map Prod.fst

end

/-- Strings in the order of their code points. -/
def textLE (a b : String) : Bool := Ranking.lexLE Char.toNat a.toList b.toList

/-- `unique`: sorted, each element once. -/
def unique (labels : List String) : List String := labels.dedup.mergeSort textLE

namespace Rules

variable (rules : Rules)

/-- `$R.tier_of[.] // "?"`. -/
def tier (label : String) : String := (rules.tierOf.lookup label).getD "?"

def maxOf (tier : String) : Option ℕ := (rules.tierMax.lookup tier).join

/-- The order of `sort_by([($R.precedence[.] // 99), .])`. -/
def ranked : String → String → Bool :=
  Ranking.byRank (fun label => (rules.precedence.lookup label).getD 99) textLE

def isCanonical (label : String) : Bool := rules.tierOf.any fun entry => entry.1 = label

end Rules

def kwtype (folding : CaseFolding) (rules : Rules) (text : String) : Option String :=
  ((signals folding text rules.keywordType).mergeSort rules.ranked).head?

/-- At most the maximum of the tier stays, those of the highest precedence. -/
def limit (rules : Rules) (tier : String) (group : List String) : List String :=
  match rules.maxOf tier with
  | none => group
  | some max => if group.length ≤ max then group else (group.mergeSort rules.ranked).take max

def enforce (rules : Rules) (labels : List String) : List String :=
  let labels := unique labels
  (unique (labels.map rules.tier)).flatMap fun tier =>
    limit rules tier (labels.filter fun label => rules.tier label = tier)

/-- The labels of the rules that match, without those of types by keywords. -/
def ruleLabels (folding : CaseFolding) (rules : Rules) (title : String) : List String :=
  let text := String.ofList (norm title.toList)
  let (tagRule, rest) := bracket rules title.toList
  (tagRule.map rulelabels).getD [] ++ ((prefixrule rules rest).map rulelabels).getD [] ++
    signals folding text rules.keywordArea

def signalLabels (folding : CaseFolding) (rules : Rules) (title : String) : List String :=
  let text := String.ofList (norm title.toList)
  signals folding text rules.statusSignal ++ signals folding text rules.metaSignal ++
    signals folding text rules.scopeSignal

/-- A type by keywords, when neither the rules nor the issue have one. -/
def keywordLabel (folding : CaseFolding) (rules : Rules) (title : String) (haves : List String) :
    Option String :=
  if (ruleLabels folding rules title ++ haves).any (· ∈ rules.types) then none
  else kwtype folding rules (String.ofList (norm title.toList))

/-- A tag or a prefix has a rule. -/
def ruleMatches (rules : Rules) (title : String) : Bool :=
  let (tagRule, rest) := bracket rules title.toList
  tagRule.isSome || (prefixrule rules rest).isSome

def lockedtiers (rules : Rules) (haves : List String) : List String :=
  (rules.tierMax.map Prod.fst).filter fun tier =>
    rules.maxOf tier = some 1 && haves.any fun label => rules.tier label = tier

/-- The canonical labels that the rules, the keywords and the signals name. -/
def candidates (folding : CaseFolding) (rules : Rules) (title : String) (haves : List String) :
    List String :=
  (ruleLabels folding rules title ++ (keywordLabel folding rules title haves).toList ++
    signalLabels folding rules title).filter rules.isCanonical

/-- What is left of them beside the labels of the issue. -/
def suggestions (folding : CaseFolding) (rules : Rules) (title : String) (haves : List String) :
    List String :=
  let kept := enforce rules
    (unique (candidates folding rules title haves) ++ haves.filter rules.isCanonical)
  (kept.filter (· ∉ haves)).filter fun label => rules.tier label ∉ lockedtiers rules haves

/-- The labels of the issue, sorted and without the empty one. -/
def present (labels : List String) : List String := unique (labels.filter (· ≠ ""))

def classify (folding : CaseFolding) (rules : Rules) (title : String) (labels : List String) :
    List String :=
  let haves := present labels
  let out := suggestions folding rules title haves
  if !(ruleMatches rules title || (keywordLabel folding rules title haves).isSome) then []
  else if !((out ++ haves).any (· ∈ rules.types)) then []
  else unique out

end CivicConnect.Triage
