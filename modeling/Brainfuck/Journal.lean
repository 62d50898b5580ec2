/-
The journal: a filter that says what is heard, and the events that passed it, in order.
-/
import Brainfuck.Journal.Event

namespace Brainfuck

/-- the topics that are heard -/
structure Filter where
  topics : List Topic := []
  deriving DecidableEq, Repr

namespace Filter

/-- nothing is heard -/
def silent : Filter := {}

/-- the topics a test admits are heard -/
def ofPred (p : Topic → Bool) : Filter := ⟨Topic.all.filter p⟩

/-- all topics at most as loud as level `l` are heard -/
def upTo (l : Level) : Filter := ofPred fun t => t.level.rank ≤ l.rank

def hears (f : Filter) (e : Event) : Bool := f.topics.contains e.topic

end Filter

structure Journal where
  filter : Filter := .silent
  events : Array Event := #[]
  deriving DecidableEq, Repr

namespace Journal

/-- note an event if the filter lets it through -/
def note (j : Journal) (e : Event) : Journal :=
  if j.filter.hears e then { j with events := j.events.push e } else j

def noteAll (j : Journal) (es : List Event) : Journal := es.foldl note j

/-- a journal that hears nobody -/
def silent : Journal := {}

end Journal

end Brainfuck
