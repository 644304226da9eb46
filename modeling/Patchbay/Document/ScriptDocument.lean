import Patchbay.Document.ValueDocument
import Patchbay.Node.Script

/-!
# Documents of node types

A host may bring node types as documents. Such a document names the type, says which part it plays,
lists its pins, names those that automatic wiring may use, and gives the script, a list of
instructions each of which is a list of its name and its arguments. Pins are referred to as
`in/Name` and `out/Name`. Everything but the name may be left out.
-/

namespace Patchbay

def Direction.ofJson? (j : Json) : Option Direction :=
  match j.string? with
  | some "in" => some .input
  | some "out" => some .output
  | _ => none

def Role.ofJson? (j : Json) : Option Role :=
  j.string?.bind fun s =>
    [Role.internal, .entryPoint, .exitPoint].find? fun r => r.name == s

def PinRef.ofText? (s : String) : Option PinRef :=
  match s.toList with
  | 'i' :: 'n' :: '/' :: rest => some ⟨.input, String.ofList rest⟩
  | 'o' :: 'u' :: 't' :: '/' :: rest => some ⟨.output, String.ofList rest⟩
  | _ => none

def PinRef.ofJson? (j : Json) : Option PinRef := j.string?.bind ofText?

/-- The instruction of a name and arguments. -/
def Instruction.ofCall? (name : String) (args : List Json) : Option Instruction :=
  match name, args with
  | "pull", [p] => (PinRef.ofJson? p).map .pull
  | "store", [p] => (PinRef.ofJson? p).map .store
  | "set", [p, v] => do return .set (← PinRef.ofJson? p) (← Value.ofJson? v)
  | "copy", [a, b] => do return .copy (← PinRef.ofJson? a) (← PinRef.ofJson? b)
  | "add", [a, b, c] => do
    return .add (← PinRef.ofJson? a) (← PinRef.ofJson? b) (← PinRef.ofJson? c)
  | "mul", [a, b, c] => do
    return .multiply (← PinRef.ofJson? a) (← PinRef.ofJson? b) (← PinRef.ofJson? c)
  | "error", [s] => s.string?.map .fail
  | "cost", [n] => n.size?.map .cost
  | "stack", [] => some .showStack
  | "clear", [] => some .clearStack
  | "leave", [] => some .leave
  | "stop", [] => some .stop
  | "exit", [p] => (PinRef.ofJson? p).map .exit
  | "exit_if", [c, p] => do return .exitIf (← PinRef.ofJson? c) (← PinRef.ofJson? p)
  | "exit_foreign", [] => some .exitForeign
  | "halt", [] => some .halt
  | _, _ => none

def Instruction.ofJson? : Json → Option Instruction
  | .array (name :: args) => name.string?.bind fun name => ofCall? name args
  | _ => none

def PinSpec.ofJson? (j : Json) : Option PinSpec := do
  let name ← (← j.field? "name").string?
  let direction ← Direction.ofJson? (← j.field? "dir")
  let type ← PinType.ofJson? (← j.field? "type")
  let initial ← j.fieldOr "value" (fun v => (Value.ofJson? v).map some) none
  return { name, direction, type, initial }

/-- A list whose items are read one by one. -/
def Json.list? {α : Type} (decode : Json → Option α) (j : Json) : Option (List α) :=
  j.items?.bind fun js => js.mapM decode

def ScriptedType.ofJson? (j : Json) : Option ScriptedType := do
  let name ← (← j.field? "name").string?
  let version ← j.fieldOr "version" (Json.natBelow? 32) 1
  let role ← j.fieldOr "kind" Role.ofJson? .internal
  let catalog ← j.fieldOr "catalog" Json.string? ""
  let display ← j.fieldOr "display" Json.string? name
  let pins ← j.fieldOr "pins" (Json.list? PinSpec.ofJson?) []
  let auto := (j.field? "auto").getD (.object [])
  let refs (key : String) : Option (List PinRef) := auto.fieldOr key (Json.list? PinRef.ofJson?) []
  let flowIn ← refs "flow_in"
  let flowOut ← refs "flow_out"
  let dataIn ← refs "data_in"
  let dataOut ← refs "data_out"
  let script ← j.fieldOr "script" (Json.list? Instruction.ofJson?) []
  let noteReset ← j.fieldOr "trace_reset" Json.bool? false
  return {
    info := ⟨name, version, role, catalog⟩, display, pins
    flowIn := flowIn.head?, flowOut := flowOut.head?, dataIn, dataOut, script, noteReset }

end Patchbay
