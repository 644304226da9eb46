import Patchbay.Graph
import Patchbay.Session.Observer
import Patchbay.Slot
import Patchbay.Text.Quoted

/-!
# Summaries for logs

One-line texts that show what a pin, a graph, a slot or a place for an observer is without what it
holds. Two points at the end say that something was left out.
-/

namespace Patchbay

/-- A summary: the name of the kind and the fields shown; `more` says that there are others. -/
def summaryText (kind : String) (fields : List (String × String)) (more : Bool) : String :=
  let shown := fields.map fun f => f.1 ++ ": " ++ f.2
  kind ++ " \x7b " ++ ", ".intercalate (shown ++ if more then [".."] else []) ++ " \x7d"

/-- The name of a type; a type of the host shows its own name in quotes. -/
def PinType.summary : PinType → String
  | .custom n => "Custom(" ++ Quoted.encode false n ++ ")"
  | t => t.name

def Pin.summary (p : Pin) (owner : NodeId) : String :=
  summaryText "Pin"
    [("id", p.id.wrapped), ("name", Quoted.encode false p.name), ("owner", owner.wrapped),
      ("direction", p.direction.name), ("pin_type", p.type.summary)] true

def Graph.summary (g : Graph) : String :=
  summaryText "Graph"
    [("name", Quoted.encode false g.name), ("nodes", toString g.nodes.length),
      ("links", toString g.links.length)] false

/-- A slot whose keys have a text. Nothing is known of the key while somebody holds the slot. -/
def Slot.summary {κ ρ : Type} (keyText : κ → String) (held : Bool) (s : Slot κ ρ) : String :=
  let key :=
    if held then "<locked>"
    else
      match s.key? with
      | some k => "Some(" ++ keyText k ++ ")"
      | none => "None"
  summaryText "ResourceSlot" [("key", Quoted.encode false key)] true

/-- A place for an observer. -/
def Observer.summary (o : Option Observer) : String :=
  summaryText "CallbackDispatcher" [("has_observer", if o.isSome then "true" else "false")] false

end Patchbay
