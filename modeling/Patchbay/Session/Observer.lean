import Patchbay.Id

/-!
# Observers of a session

Every edit of a session is told to at most one observer as a `Notice`, and the observer answers with
a `Directive` that says what the session does next. Without an observer the answer is to do nothing.
-/

namespace Patchbay

inductive ChangeKind where
  | link
  | unlink
  /-- A node was put in and may be wired. -/
  | nodeInserted
  /-- A node was put in and is not to be wired. -/
  | nodeAppended
  | nodeDeleted
  /-- A parameter of a node or the value of an input changed. -/
  | paramChanged
  | settingChanged
  deriving DecidableEq, Inhabited

namespace ChangeKind

def all : List ChangeKind :=
  [link, unlink, nodeInserted, nodeAppended, nodeDeleted, paramChanged, settingChanged]

def name : ChangeKind → String
  | link => "Link"
  | unlink => "Unlink"
  | nodeInserted => "NodeInserted"
  | nodeAppended => "NodeAppended"
  | nodeDeleted => "NodeDeleted"
  | paramChanged => "ParamChanged"
  | settingChanged => "SettingChanged"

end ChangeKind

/-- What a session is to do after an edit. -/
inductive Directive where
  | nothing
  | autoLink
  | runAgain
  deriving DecidableEq, Inhabited

def Directive.name : Directive → String
  | .nothing => "Nothing"
  | .autoLink => "AutoLink"
  | .runAgain => "RunAgain"

/-- What an observer is told: the kind of edit and the node concerned. -/
structure Notice where
  kind : ChangeKind
  nodeName : String
  node : NodeId
  deriving DecidableEq

abbrev Observer := Notice → Directive

/-- The observer of a host that wires what is put in and keeps its results up to date. -/
def hostObserver : Observer := fun notice =>
  match notice.kind with
  | .nodeInserted => .autoLink
  | .paramChanged | .settingChanged => .runAgain
  | .link | .unlink | .nodeAppended | .nodeDeleted => .nothing

/-- The answer of an observer that need not be there. -/
def Observer.answer (o : Option Observer) (notice : Notice) : Directive :=
  match o with
  | some o => o notice
  | none => .nothing

end Patchbay
