/-
Rules that filter the journal. A rule covers the topics of some components, perhaps only those with a certain field,
and says up to which level they are heard. Where several rules cover a topic the most specific one decides: first the
one with the longest target, then one that names a field; among rules that name a field the last in the order of names
counts, among rules that differ in their level only the last given.
-/
import Brainfuck.Journal

namespace Brainfuck

/-- the least grave level that is heard; nothing is heard when unset -/
abbrev Threshold := Option Level

def Threshold.hears (t : Threshold) (l : Level) : Bool :=
  match t with
  | none => false
  | some m => l.rank ≤ m.rank

structure Rule where
  /-- covers the components whose target starts with this text -/
  target : List Char := []
  /-- covers only topics with this field, unless empty -/
  field : List Char := []
  threshold : Threshold
  deriving DecidableEq, Repr

namespace Rule

def covers (r : Rule) (t : Topic) : Bool :=
  r.target.isPrefixOf t.component.target.toList && (r.field.isEmpty || t.hasField (String.ofList r.field))

/-- rule `s`, given later, decides before rule `r` -/
def yieldsTo (r s : Rule) : Bool :=
  r.target.length < s.target.length || (r.target.length = s.target.length && !(decide (s.field < r.field)))

/-- the rule that decides about a topic -/
def deciding? (t : Topic) (rs : List Rule) : Option Rule :=
  (rs.filter (·.covers t)).foldl (fun found r =>
    match found with
    | some b => if b.yieldsTo r then some r else found
    | none => some r) none

end Rule

/-- the filter some rules make; a topic that no rule covers is not heard -/
def Filter.ofRules (rs : List Rule) : Filter :=
  .ofPred fun t => (Rule.deciding? t rs).any fun r => r.threshold.hears t.level

end Brainfuck
