import Flowchart.Flow.Basic

/-!
# Chained workflows

A chained workflow consists of a main graph and of subscriber graphs.  A graph
has heads, and each head starts a chain that goes on with the followers stored
under the id of the head.  The key of a subscriber graph names the steps that
the graph waits for.
-/

namespace Flowchart

/-- A step of a chain. -/
structure ChainStep where
  id : String
  description : Option String
  /-- The group of conditions that the step runs on. -/
  guard : Option Tree
  /-- The step is run again until, or while, its guard holds. -/
  loopKind : Option LoopKind
  loopLabel : Option String
  deriving Repr

/-- The chains of a graph. -/
structure ChainGraph where
  heads : List ChainStep
  /-- The followers by the id of the head, in the order of the ids. -/
  followers : List (String × List ChainStep)
  deriving Repr

/-- A chained workflow. -/
structure Workflow where
  main : ChainGraph
  /-- The subscriber graphs in the order of their keys. -/
  subscribers : List (String × ChainGraph)
  deriving Repr

namespace ChainGraph

/-- The graph without chains. -/
def empty : ChainGraph := ⟨[], []⟩

/-- The chain that a head starts. -/
def chain (graph : ChainGraph) (head : ChainStep) : List ChainStep :=
  head :: (graph.followers.lookup head.id).getD []

end ChainGraph

/-- The workflow without steps. -/
def Workflow.empty : Workflow := ⟨.empty, []⟩

end Flowchart
