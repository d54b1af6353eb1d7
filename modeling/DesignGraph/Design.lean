/-
  Designs — a graph under construction and the logger it reports to.

  * `Design.perform` carries out a call on the graph and hands what is said to
    the logger; the logger has no say in what the graph does;
  * `Design.run` carries out calls in order.
-/
import DesignGraph.Graph.Update
import DesignGraph.Log.Logger

namespace DesignGraph

/-- A graph and the logger it reports to. -/
structure Design where
  graph : Graph := {}
  logger : Logger := {}

namespace Design

instance : Inhabited Design := ⟨{}⟩

/-- Carries out a call. -/
def perform (d : Design) (c : Call) : Reply × Design :=
  let out := d.graph.perform c
  (out.result, ⟨out.graph, d.logger.logAll (out.notes.map Note.record)⟩)

/-- Carries out calls in order. -/
def run (d : Design) (cs : List Call) : List Reply × Design :=
  match cs with
  | [] => ([], d)
  | c :: cs =>
    let (reply, d) := d.perform c
    let (replies, d) := run d cs
    (reply :: replies, d)

end Design

end DesignGraph
