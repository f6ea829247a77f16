import LocalNames.Method

namespace LocalNames

inductive Level where
  | trace
  | debug
  | warn
deriving DecidableEq, Repr

def Level.name : Level → Text
  | trace => "TRACE"
  | debug => "DEBUG"
  | warn => "WARN"

inductive Event where
  | kept (ty : Text)
  | created (key base : Text)
  | named (v : Variable) (ty name : Text)
  | refused (method kind : Text)
deriving DecidableEq, Repr

namespace Event

def level : Event → Level
  | kept _ | named .. => .trace
  | created .. => .debug
  | refused .. => .warn

def message : Event → Text
  | kept _ => "no naming family, keeping the type name"
  | created .. => "created naming family"
  | named .. => "named variable"
  | refused .. => "cannot inherit naming state"

def fields : Event → List (Text × Text)
  | kept ty => [("ty", ty)]
  | created key base => [("key", key), ("base", base)]
  | named v ty name => [("var", v.text), ("ty", ty), ("name", name)]
  | refused method kind => [("method", method), ("parent", kind)]

end Event

inductive LogEntry where
  | batch (method : Text) (size : Nat)
  | event (inBatch : Bool) (e : Event)
deriving DecidableEq, Repr

namespace LogEntry

def batchName : Text := "rename"

def level : LogEntry → Level
  | batch .. => .debug
  | event _ e => e.level

end LogEntry

end LocalNames
