import LocalNames.Session

namespace LocalNames

inductive Request where
  | draw (ty : Text) (count : Nat)
  | rename (batch : Batch)
  | family (key : Text)
  | remap (source : Text)

structure Response where
  reply : Reply
  scope : Scope
  log : List LogEntry

def LogEntry.relabel (label : Text) : LogEntry → LogEntry
  | batch _ size => .batch label size
  | event inBatch e => .event inBatch e

def relabelAll (label : Text) (transcript : List (Reply × List LogEntry)) :
    List (Reply × List LogEntry) :=
  transcript.map fun answer ↦ (answer.1, answer.2.map (.relabel label))

namespace Scope

def respond (s : Scope) : Request → Response
  | .draw ty count =>
    let draws := s.drawAll (List.replicate count ty)
    ⟨.names draws.names, draws.scope, draws.events.map (.event false)⟩
  | .rename batch =>
    let naming := s.rename batch
    ⟨.batch naming.names, naming.scope, naming.log⟩
  | .family key => ⟨.family (s.family? key), s, []⟩
  | .remap source => ⟨.remap (s.remap? source), s, []⟩

def transcript (s : Scope) : List Request → List (Reply × List LogEntry)
  | [] => []
  | request :: requests =>
    let response := s.respond request
    (response.reply, response.log) :: response.scope.transcript requests

def relabel (label : Text) (s : Scope) : Scope := { s with label }

theorem inherit_eq_relabel (s parent : Scope) : s.inherit parent = parent.relabel s.label := rfl

theorem nested_eq_relabel (method : Method) (parent : Scope) :
    nested method parent = parent.relabel method.label := rfl

variable (label : Text)

theorem draw_relabel (s : Scope) (ty : Text) : (s.relabel label).draw ty =
    { s.draw ty with scope := (s.draw ty).scope.relabel label } := by
  have hs : (s.relabel label).source ty = s.source ty := rfl
  have hf (key : Text) : (s.relabel label).family? key = s.family? key := rfl
  unfold draw
  rw [hs]
  cases s.source ty with
  | family key =>
    simp only [hf]
    cases s.family? key <;> rfl
  | derived key base =>
    simp only [hf]
    cases s.family? key <;> rfl
  | typeName => rfl

theorem drawAll_relabel (s : Scope) (tys : List Text) : (s.relabel label).drawAll tys =
    { s.drawAll tys with scope := (s.drawAll tys).scope.relabel label } := by
  induction tys generalizing s with
  | nil => rfl
  | cons ty tys ih => simp only [drawAll, draw_relabel, ih]

theorem nameAll_relabel (s : Scope) (entries : List (Variable × Text)) :
    (s.relabel label).nameAll entries =
      { s.nameAll entries with scope := (s.nameAll entries).scope.relabel label } := by
  induction entries generalizing s with
  | nil => rfl
  | cons e entries ih =>
    by_cases h : e.2 = TypeName.receiver
    · simp only [nameAll, if_pos h, ih]
    · simp only [nameAll, if_neg h, draw_relabel, ih]

theorem map_relabel_log_nameAll (s : Scope) (entries : List (Variable × Text)) :
    (s.nameAll entries).log.map (.relabel label) = (s.nameAll entries).log := by
  induction entries generalizing s with
  | nil => rfl
  | cons e entries ih =>
    by_cases h : e.2 = TypeName.receiver
    · simp only [nameAll, if_pos h, ih]
    · simp only [nameAll, if_neg h, List.map_append, ih, List.map_map]
      rfl

theorem map_relabel_events (inBatch : Bool) (events : List Event) :
    (events.map (.event inBatch)).map (.relabel label) = events.map (LogEntry.event inBatch) := by
  rw [List.map_map]
  rfl

/-- The label of a scope shows in the log and nowhere else. -/
theorem respond_relabel (s : Scope) (request : Request) : (s.relabel label).respond request =
    ⟨(s.respond request).reply, (s.respond request).scope.relabel label,
      (s.respond request).log.map (.relabel label)⟩ := by
  cases request with
  | draw ty count => simp only [respond, drawAll_relabel, map_relabel_events]
  | rename batch =>
    simp only [respond, rename, nameAll_relabel, List.map_cons, map_relabel_log_nameAll]
    rfl
  | family key => rfl
  | remap source => rfl

theorem transcript_relabel (s : Scope) (requests : List Request) :
    (s.relabel label).transcript requests = relabelAll label (s.transcript requests) := by
  induction requests generalizing s with
  | nil => rfl
  | cons request requests ih =>
    simp only [transcript, respond_relabel, ih, relabelAll, List.map_cons]

end Scope

def Request.on (id : Text) : Request → Command
  | draw ty count => .draw id ty count
  | rename batch => .rename id batch
  | family key => .family id key
  | remap source => .remap id source

namespace Session

def transcript (s : Session) (id : Text) (requests : List Request) : List (Reply × List LogEntry) :=
  (s.run (requests.map (Request.on id))).map fun outcome ↦ (outcome.reply, outcome.log)

variable {s : Session} {id : Text} {scope : Scope}

theorem step_on (h : s.scopes.get? id = some scope) (request : Request) :
    let outcome := s.step (request.on id)
    let response := scope.respond request
    outcome.reply = response.reply ∧ outcome.log = response.log ∧
      outcome.session.scopes.get? id = some response.scope := by
  cases request with
  | draw ty count =>
    simp only [Request.on, step, onScope, h]
    exact ⟨rfl, rfl, Table.get?_insert_self ..⟩
  | rename batch =>
    simp only [Request.on, step, onScope, h]
    exact ⟨rfl, rfl, Table.get?_insert_self ..⟩
  | family key =>
    simp only [Request.on, step, onScope, h]
    exact ⟨rfl, rfl, h⟩
  | remap source =>
    simp only [Request.on, step, onScope, h]
    exact ⟨rfl, rfl, h⟩

theorem transcript_eq (h : s.scopes.get? id = some scope) (requests : List Request) :
    s.transcript id requests = scope.transcript requests := by
  induction requests generalizing s scope with
  | nil => rfl
  | cons request requests ih =>
    obtain ⟨hr, hl, hs⟩ := step_on h request
    have hrest := ih hs
    simp only [transcript] at hrest
    simp only [transcript, List.map_cons, run, hrest, hr, hl, Scope.transcript]

variable {parent : Text} {other : Scope}

theorem get?_step_copy (hp : s.scopes.get? parent = some other) (copy : Text) :
    (s.step (.copy copy parent)).session.scopes.get? copy = some other := by
  simp only [step, onScope, hp, putScope, Table.get?_insert_self]

theorem get?_step_nested (hp : s.scopes.get? parent = some other) (child : Text)
    (method : Method) : (s.step (.nested child parent method)).session.scopes.get? child =
      some (other.relabel method.label) := by
  simp only [step, onScope, hp, putScope, Table.get?_insert_self, Scope.nested_eq_relabel]

theorem step_inherit (hs : s.scopes.get? id = some scope) (hp : s.scopes.get? parent = some other) :
    s.step (.inherit id parent) =
      ⟨.done, { s with scopes := s.scopes.insert id (other.relabel scope.label) }, []⟩ := by
  simp only [step, onScope, hs, hp, putScope, Scope.inherit_eq_relabel]

theorem step_addParent (hs : s.scopes.get? id = some scope)
    (hp : s.scopes.get? parent = some other) :
    s.step (.addParent id parent) = s.step (.inherit id parent) := by
  simp only [step, onScope, addParentTo, Scope.addParent, hs, hp, List.map_nil]

theorem step_addForeignParent (hs : s.scopes.get? id = some scope) (kind : Text) :
    s.step (.addForeignParent id kind) =
      ⟨.failed (.foreignParent kind), s, [.event false (.refused scope.label kind)]⟩ := by
  simp only [step, onScope, addParentTo, Scope.addParent, hs, putScope, List.map_cons,
    List.map_nil]

/-- A scope that is linked to another one answers as a copy of that one, whatever it was before, and
one that is refused answers as if it had not been tried to link it. -/
theorem inherit_replaces (hs : s.scopes.get? id = some scope)
    (hp : s.scopes.get? parent = some other) (copy : Text) (requests : List Request) :
    let expected := (s.step (.copy copy parent)).session.transcript copy requests
    (s.step (.inherit id parent)).session.transcript id requests =
        relabelAll scope.label expected ∧
      (s.step (.addParent id parent)).reply = .done ∧
      (s.step (.addParent id parent)).session.transcript id requests =
        relabelAll scope.label expected ∧
      (∀ (child : Text) (method : Method),
        (s.step (.nested child parent method)).session.transcript child requests =
          relabelAll method.label expected) ∧
      ∀ kind : Text, (s.step (.addForeignParent id kind)).reply = .failed (.foreignParent kind) ∧
        (s.step (.addForeignParent id kind)).session.transcript id requests =
          s.transcript id requests := by
  intro expected
  have he : expected = other.transcript requests := transcript_eq (get?_step_copy hp copy) requests
  have hi : (s.step (.inherit id parent)).session.transcript id requests =
      relabelAll scope.label expected := by
    rw [he, ← Scope.transcript_relabel, step_inherit hs hp]
    exact transcript_eq (Table.get?_insert_self ..) requests
  refine ⟨hi, ?_, ?_, fun child method ↦ ?_, fun kind ↦ ?_⟩
  · rw [step_addParent hs hp, step_inherit hs hp]
  · rw [step_addParent hs hp, hi]
  · rw [he, ← Scope.transcript_relabel]
    exact transcript_eq (get?_step_nested hp child method) requests
  · rw [step_addForeignParent hs]
    exact ⟨rfl, rfl⟩

theorem inherit_replaces_widget :
    let outer : Method := ⟨"Demo", "outer", "()V"⟩
    let inner : Method := ⟨"Demo", "inner", "()V"⟩
    let own : Options := ⟨[⟨"widget", ["w"], 0, true⟩], .ofList [("foo", "widget")]⟩
    let s : Session := ⟨.ofList [("a", ((Scope.seeded outer own).draw "foo").scope),
      ("b", ((Scope.new inner).draw "Gadget").scope)], .empty⟩
    (s.step (.inherit "b" "a")).session.transcript "b"
        [.remap "foo", .draw "foo" 2, .draw "Gadget" 1, .family "int"] =
      [(.remap (some "widget"), []), (.names ["w1", "w2"], []),
        (.names ["gadget"], [.event false (.created "gadget" "gadget")]), (.family none, [])] := by
  intro outer inner own s
  have hs : s.scopes.get? "b" = some ((Scope.new inner).draw "Gadget").scope := by decide +kernel
  have hp : s.scopes.get? "a" = some ((Scope.seeded outer own).draw "foo").scope := by
    decide +kernel
  rw [(inherit_replaces hs hp "c" _).1]
  decide +kernel

end Session

end LocalNames
