import LocalNames.Options.Toml
import LocalNames.Scope.Batch

namespace LocalNames

inductive OptionsInput where
  | document (text : Text)
  | direct (o : Options)

/-- A document is checked when it is read, direct options only when they are used. -/
def OptionsInput.options : OptionsInput → Except Failure Options
  | document text => Options.ofToml text
  | direct o => .ok o

inductive Command where
  | new (id : Text) (method : Method)
  | withOptions (id : Text) (method : Method) (input : OptionsInput)
  | nested (id parent : Text) (method : Method)
  | copy (id source : Text)
  | factory (id : Text) (input : Option OptionsInput)
  | create (id factory : Text) (method : Method)
  | inherit (id parent : Text)
  | addParent (id parent : Text)
  | addForeignParent (id kind : Text)
  | rename (id : Text) (batch : Batch)
  | draw (id ty : Text) (count : Nat)
  | nameEach (id ty : Text) (count : Nat)
  | family (id key : Text)
  | peek (id key : Text) (count : Nat)
  | remap (id key : Text)
  | parameter (id name : Text) (index : Nat)
  | kind (id : Text)

structure Preview where
  names : List Text
  before : Family
  after : Family
deriving DecidableEq

def Preview.isIdle (p : Preview) : Bool := p.before = p.after

inductive Reply where
  | done
  | failed (failure : Failure)
  | unknown (id : Text)
  | batch (names : List (Variable × Text))
  | names (names : List Text)
  | family (f : Option Family)
  | preview (p : Option Preview)
  | remap (target : Option Text)
  | text (t : Text)
deriving DecidableEq

/-- Scopes and factories under the names they were given; a name that is given again moves on to the
new one. -/
structure Session where
  scopes : Table Text Scope := .empty
  factories : Table Text Factory := .empty

structure Outcome where
  reply : Reply
  session : Session
  log : List LogEntry := []

namespace Session

def putScope (s : Session) (id : Text) (log : List LogEntry) : Except Failure Scope → Outcome
  | .ok scope => ⟨.done, { s with scopes := s.scopes.insert id scope }, log⟩
  | .error failure => ⟨.failed failure, s, log⟩

def putFactory (s : Session) (id : Text) : Except Failure Factory → Outcome
  | .ok factory =>
    { reply := .done, session := { s with factories := s.factories.insert id factory } }
  | .error failure => { reply := .failed failure, session := s }

def answer (s : Session) (reply : Reply) : Outcome := { reply, session := s }

def onScope (s : Session) (id : Text) (action : Scope → Outcome) : Outcome :=
  match s.scopes.get? id with
  | some scope => action scope
  | none => s.answer (.unknown id)

def addParentTo (s : Session) (id : Text) (parent : Parent) : Outcome :=
  s.onScope id fun scope ↦
    let (result, events) := scope.addParent parent
    s.putScope id (events.map (.event false)) result

/-- Carries out a command. One that fails leaves the session as it was. -/
def step (s : Session) : Command → Outcome
  | .new id method => s.putScope id [] (.ok (.new method))
  | .withOptions id method input =>
    s.putScope id [] (input.options.bind (Scope.withOptions method))
  | .nested id parent method =>
    s.onScope parent fun scope ↦ s.putScope id [] (.ok (.nested method scope))
  | .copy id source => s.onScope source fun scope ↦ s.putScope id [] (.ok scope)
  | .factory id none => s.putFactory id (.ok .builtin)
  | .factory id (some input) => s.putFactory id (input.options.bind Factory.ofOptions)
  | .create id factory method =>
    match s.factories.get? factory with
    | some f => s.putScope id [] (.ok (f.create method))
    | none => s.answer (.unknown factory)
  | .inherit id parent =>
    s.onScope id fun scope ↦
      s.onScope parent fun parent ↦ s.putScope id [] (.ok (scope.inherit parent))
  | .addParent id parent => s.onScope parent fun parent ↦ s.addParentTo id (.scope parent)
  | .addForeignParent id kind => s.addParentTo id (.foreign kind)
  | .rename id batch =>
    s.onScope id fun scope ↦
      let naming := scope.rename batch
      { s.putScope id naming.log (.ok naming.scope) with reply := .batch naming.names }
  | .draw id ty count =>
    s.onScope id fun scope ↦
      let draws := scope.drawAll (List.replicate count ty)
      { s.putScope id (draws.events.map (.event false)) (.ok draws.scope) with
        reply := .names draws.names }
  | .nameEach id ty count =>
    s.onScope id fun scope ↦
      let (names, scope, log) := scope.nameEach ty count
      { s.putScope id log (.ok scope) with reply := .names names }
  | .family id key => s.onScope id fun scope ↦ s.answer (.family (scope.family? key))
  | .peek id key count =>
    s.onScope id fun scope ↦
      s.answer (.preview ((scope.family? key).map fun f ↦ ⟨f.names count, f, f.after count⟩))
  | .remap id key => s.onScope id fun scope ↦ s.answer (.remap (scope.remap? key))
  | .parameter id name index =>
    s.onScope id fun scope ↦ s.answer (.text (scope.parameterName name index))
  | .kind id => s.onScope id fun _ ↦ s.answer (.text Scope.kind)

def run (s : Session) : List Command → List Outcome
  | [] => []
  | command :: rest =>
    let outcome := s.step command
    outcome :: outcome.session.run rest

end Session

end LocalNames
