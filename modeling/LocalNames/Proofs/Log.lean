import LocalNames.Proofs.Batch
import LocalNames.Proofs.Family

namespace LocalNames

namespace Event

def created? : Event → Option (Text × Text)
  | created key base => some (key, base)
  | _ => none

def kept? : Event → Option Text
  | kept ty => some ty
  | _ => none

def named? : Event → Option ((Variable × Text) × Text)
  | named v ty name => some ((v, name), ty)
  | _ => none

end Event

namespace LogEntry

def event? : LogEntry → Option Event
  | event _ e => some e
  | batch .. => none

def batch? : LogEntry → Option (Text × Nat)
  | batch method size => some (method, size)
  | event .. => none

end LogEntry

def creations (events : List Event) : List (Text × Text) := events.filterMap Event.created?

def eventsOf (log : List LogEntry) : List Event := log.filterMap LogEntry.event?

theorem eventsOf_append (log log' : List LogEntry) :
    eventsOf (log ++ log') = eventsOf log ++ eventsOf log' := List.filterMap_append

theorem eventsOf_map (inBatch : Bool) (events : List Event) :
    eventsOf (events.map (.event inBatch)) = events := by
  induction events with
  | nil => rfl
  | cons e events ih => exact congrArg (e :: ·) ih

theorem filterMap_batch?_map (inBatch : Bool) (events : List Event) :
    (events.map (.event inBatch)).filterMap LogEntry.batch? = [] := by
  induction events with
  | nil => rfl
  | cons e events ih => exact ih

def Call.opened? (label : Text) : Call → Option (Text × Nat)
  | draw _ => none
  | rename batch => some (label, batch.size)

namespace Scope

def log (s : Scope) : Call → List LogEntry
  | .draw ty => (s.draw ty).events.map (.event false)
  | .rename batch => (s.rename batch).log

def logAll (s : Scope) : List Call → List LogEntry
  | [] => []
  | call :: calls => s.log call ++ (s.perform call).logAll calls

/-- Those of the types drawn for in turn whose draw leaves both tables as they were. -/
def idleTypes (s : Scope) : List Text → List Text
  | [] => []
  | ty :: tys =>
    let next := (s.draw ty).scope
    if next.families = s.families ∧ next.remaps = s.remaps then ty :: next.idleTypes tys
    else next.idleTypes tys

/-- All that a draw may come to, with what is noted about it. -/
inductive Turn (s : Scope) (ty : Text) : Drawn → Prop
  | continued {key : Text} {f : Family} (hf : s.family? key = some f) :
      Turn s ty ⟨f.name, s.put key f.advance, []⟩
  | founded {key base : Text} (hn : s.family? key = none) :
      Turn s ty ⟨(Family.ofBase base).name, s.put key (Family.ofBase base).advance,
        [.created key base]⟩
  | kept : Turn s ty ⟨lowercase ty, s, [.kept ty]⟩

theorem turn_draw (s : Scope) (ty : Text) : Turn s ty (s.draw ty) := by
  unfold draw
  cases s.source ty with
  | family key =>
    cases hf : s.family? key with
    | some f =>
      simp only [hf]
      exact .continued hf
    | none =>
      simp only [hf]
      exact .kept
  | derived key base =>
    cases hf : s.family? key with
    | some f =>
      simp only [hf]
      exact .continued hf
    | none =>
      simp only [hf]
      exact .founded hf
  | typeName => exact .kept

theorem label_drawAll (s : Scope) (tys : List Text) : (s.drawAll tys).scope.label = s.label := by
  refine drawAll_induction (P := fun t ↦ t.label = s.label) (fun t ty h ↦ ?_) rfl tys
  rw [← h]
  have ht := turn_draw t ty
  generalize t.draw ty = d at ht
  cases ht <;> rfl

/-- From `s` to `s'` just these families have come in, each with its base as the only candidate, and
none has got other candidates. -/
structure Gains (s : Scope) (created : List (Text × Text)) (s' : Scope) : Prop where
  nodup : (created.map Prod.fst).Nodup
  grown (key : Text) : key ∈ created.map Prod.fst ↔
    s.family? key = none ∧ ∃ f, s'.family? key = some f
  base {key base : Text} : (key, base) ∈ created →
    ∃ f, s'.family? key = some f ∧ f.candidates = [base]
  kept {key : Text} {f : Family} : s.family? key = some f →
    ∃ f', s'.family? key = some f' ∧ f'.candidates = f.candidates

theorem Gains.refl (s : Scope) : Gains s [] s := by
  refine ⟨List.nodup_nil, fun key ↦ ?_, fun h ↦ absurd h List.not_mem_nil, fun h ↦ ⟨_, h, rfl⟩⟩
  refine iff_of_false List.not_mem_nil fun ⟨hn, f, hf⟩ ↦ ?_
  rw [hn] at hf
  cases hf

theorem Gains.trans {s t u : Scope} {created created' : List (Text × Text)}
    (h : Gains s created t) (h' : Gains t created' u) : Gains s (created ++ created') u := by
  constructor
  · rw [List.map_append]
    refine List.nodup_append'.2 ⟨h.nodup, h'.nodup, fun key hk hk' ↦ ?_⟩
    obtain ⟨-, f, hf⟩ := (h.grown key).1 hk
    rw [((h'.grown key).1 hk').1] at hf
    cases hf
  · intro key
    rw [List.map_append, List.mem_append, h.grown, h'.grown]
    constructor
    · -- no family is lost, so one that comes in late was missing from the start
      rintro (⟨hs, f, hf⟩ | ⟨ht, hu⟩)
      · obtain ⟨f', hf', -⟩ := h'.kept hf
        exact ⟨hs, f', hf'⟩
      · refine ⟨Option.eq_none_iff_forall_not_mem.2 fun f hf ↦ ?_, hu⟩
        obtain ⟨f', hf', -⟩ := h.kept hf
        rw [ht] at hf'
        cases hf'
    · rintro ⟨hs, hu⟩
      cases ht : t.family? key with
      | some f => exact .inl ⟨hs, f, rfl⟩
      | none => exact .inr ⟨rfl, hu⟩
  · intro key base hm
    rcases List.mem_append.1 hm with hm | hm
    · obtain ⟨f, hf, hb⟩ := h.base hm
      obtain ⟨f', hf', hb'⟩ := h'.kept hf
      exact ⟨f', hf', hb'.trans hb⟩
    · exact h'.base hm
  · intro key f hf
    obtain ⟨f', hf', hb⟩ := h.kept hf
    obtain ⟨f'', hf'', hb'⟩ := h'.kept hf'
    exact ⟨f'', hf'', hb'.trans hb⟩

theorem Gains.put {s : Scope} {key : Text} {f : Family} (hf : s.family? key = some f) :
    Gains s [] (s.put key f.advance) := by
  refine ⟨List.nodup_nil, fun key' ↦ ?_, fun h ↦ absurd h List.not_mem_nil, fun {key' f'} h ↦ ?_⟩
  · refine iff_of_false List.not_mem_nil fun ⟨hn, f', hf'⟩ ↦ ?_
    rw [family?_put] at hf'
    split at hf'
    · rename_i he
      rw [← he, hf] at hn
      cases hn
    · rw [hn] at hf'
      cases hf'
  · rw [family?_put]
    split
    · rename_i he
      rw [← he, hf] at h
      cases h
      exact ⟨_, rfl, rfl⟩
    · exact ⟨f', h, rfl⟩

theorem Gains.put_new {s : Scope} {key base : Text} (hn : s.family? key = none) :
    Gains s [(key, base)] (s.put key (Family.ofBase base).advance) := by
  refine ⟨List.nodup_singleton key, fun key' ↦ ?_, fun {key' base'} hm ↦ ?_, fun {key' f'} h ↦ ?_⟩
  · rw [family?_put, List.map_singleton, List.mem_singleton]
    constructor
    · rintro rfl
      exact ⟨hn, _, if_pos rfl⟩
    · rintro ⟨hs, f, hf⟩
      split at hf
      · rename_i he
        exact he.symm
      · rw [hs] at hf
        cases hf
  · obtain ⟨rfl, rfl⟩ := Prod.mk.inj (List.mem_singleton.1 hm)
    rw [family?_put, if_pos rfl]
    exact ⟨_, rfl, rfl⟩
  · have hne : key ≠ key' := by
      rintro rfl
      rw [hn] at h
      cases h
    rw [family?_put, if_neg hne]
    exact ⟨f', h, rfl⟩

theorem gains_draw (s : Scope) (ty : Text) :
    Gains s (creations (s.draw ty).events) (s.draw ty).scope := by
  have ht := turn_draw s ty
  generalize s.draw ty = d at ht
  cases ht with
  | continued hf => exact .put hf
  | founded hn => exact .put_new hn
  | kept => exact .refl s

theorem gains_drawAll (s : Scope) (tys : List Text) :
    Gains s (creations (s.drawAll tys).events) (s.drawAll tys).scope := by
  induction tys generalizing s with
  | nil => exact .refl s
  | cons ty tys ih =>
    rw [drawAll, creations, List.filterMap_append]
    exact (gains_draw s ty).trans (ih (s.draw ty).scope)

theorem families_put_ne {s : Scope} {key : Text} {f : Family}
    (h : s.family? key = none ∨ ∃ g, s.family? key = some g ∧ g.counter ≠ f.counter) :
    (s.put key f).families ≠ s.families := by
  intro he
  have hf : (s.put key f).family? key = s.family? key := congrArg (·.get? key) he
  rw [family?_put, if_pos rfl] at hf
  rcases h with hn | ⟨g, hg, hne⟩
  · rw [hn] at hf
    cases hf
  · rw [hg] at hf
    cases hf
    exact hne rfl

theorem filterMap_kept?_events (s : Scope) (tys : List Text) :
    (s.drawAll tys).events.filterMap Event.kept? = s.idleTypes tys := by
  induction tys generalizing s with
  | nil => rfl
  | cons ty tys ih =>
    have ht := turn_draw s ty
    rw [drawAll, List.filterMap_append, ih, idleTypes]
    generalize s.draw ty = d at ht
    cases ht with
    | @continued key f hf =>
      have hne : (s.put key f.advance).families ≠ s.families :=
        families_put_ne (.inr ⟨f, hf, f.counter_advance_ne.symm⟩)
      rw [if_neg fun h ↦ hne h.1]
      rfl
    | founded hn =>
      rw [if_neg fun h ↦ families_put_ne (.inl hn) h.1]
      rfl
    | kept =>
      rw [if_pos ⟨rfl, rfl⟩]
      rfl

theorem filterMap_named?_draw (s : Scope) (ty : Text) :
    (s.draw ty).events.filterMap Event.named? = [] := by
  have ht := turn_draw s ty
  generalize s.draw ty = d at ht
  cases ht <;> rfl

/-- While variables are named, each is noted with its type behind the events of its draw, and all
that is noted about families is noted by the draws. -/
theorem exists_log_nameAll (s : Scope) (l : List (Variable × Text)) :
    ∃ events : List Event, (s.nameAll l).log = events.map (.event true) ∧
      (events.filterMap Event.named?).map Prod.fst = (s.nameAll l).names ∧
      (∀ n ∈ events.filterMap Event.named?, (n.1.1, n.2) ∈ l) ∧
      ∀ {α : Type} (view : Event → Option α), (∀ v ty name, view (.named v ty name) = none) →
        events.filterMap view = (s.drawAll (typesOf l)).events.filterMap view := by
  induction l generalizing s with
  | nil => exact ⟨[], rfl, rfl, fun _ hn ↦ absurd hn List.not_mem_nil, fun _ _ ↦ rfl⟩
  | cons e l ih =>
    by_cases h : e.2 = TypeName.receiver
    · obtain ⟨events, hl, hn, hm, hv⟩ := ih s
      rw [nameAll, if_pos h, typesOf_cons_of_eq h]
      exact ⟨events, hl, hn, fun n hn ↦ List.mem_cons_of_mem e (hm n hn), hv⟩
    · obtain ⟨events, hl, hn, hm, hv⟩ := ih (s.draw (TypeName.simple e.2)).scope
      have hnamed : ((s.draw (TypeName.simple e.2)).events ++
          Event.named e.1 e.2 (s.draw (TypeName.simple e.2)).name :: events).filterMap
            Event.named? =
          ((e.1, (s.draw (TypeName.simple e.2)).name), e.2) ::
            events.filterMap Event.named? := by
        rw [List.filterMap_append, filterMap_named?_draw]
        rfl
      rw [nameAll, if_neg h, typesOf_cons_of_ne h]
      refine ⟨(s.draw (TypeName.simple e.2)).events ++
        .named e.1 e.2 (s.draw (TypeName.simple e.2)).name :: events, ?_, ?_, ?_, ?_⟩
      · simp only [hl, List.map_append, List.map_cons, List.map_nil, List.append_assoc,
          List.singleton_append]
      · rw [hnamed, List.map_cons, hn]
      · rw [hnamed]
        refine List.forall_mem_cons.2 ⟨List.mem_cons_self, fun n hn ↦ ?_⟩
        exact List.mem_cons_of_mem e (hm n hn)
      · intro α view hview
        rw [List.filterMap_append, List.filterMap_cons, hview, hv view hview, drawAll,
          List.filterMap_append]

theorem log_rename (s : Scope) (batch : Batch) :
    (s.rename batch).log = .batch s.label batch.size :: (s.nameAll batch.sorted).log := rfl

theorem filterMap_eventsOf_log {α : Type} {view : Event → Option α}
    (hview : ∀ v ty name, view (.named v ty name) = none) (s : Scope) (call : Call) :
    (eventsOf (s.log call)).filterMap view = (s.drawAll call.types).events.filterMap view := by
  cases call with
  | draw ty =>
    rw [log, eventsOf_map]
    exact congrArg _ (List.append_nil _).symm
  | rename batch =>
    obtain ⟨events, hl, -, -, hv⟩ := exists_log_nameAll s batch.sorted
    have he : eventsOf (s.log (.rename batch)) = events := by
      rw [log, log_rename, hl]
      exact eventsOf_map true events
    rw [he, hv view hview]
    rfl

theorem drawAll_append_events (s : Scope) (tys us : List Text) :
    (s.drawAll (tys ++ us)).events =
      (s.drawAll tys).events ++ ((s.drawAll tys).scope.drawAll us).events := by
  induction tys generalizing s with
  | nil => rfl
  | cons ty tys ih => simp only [List.cons_append, drawAll, ih, List.append_assoc]

theorem filterMap_eventsOf_logAll {α : Type} {view : Event → Option α}
    (hview : ∀ v ty name, view (.named v ty name) = none) (s : Scope) (calls : List Call) :
    (eventsOf (s.logAll calls)).filterMap view =
      (s.drawAll (calls.flatMap Call.types)).events.filterMap view := by
  induction calls generalizing s with
  | nil => rfl
  | cons call calls ih =>
    rw [logAll, eventsOf_append, List.filterMap_append, filterMap_eventsOf_log hview, ih,
      perform_eq_drawAll, List.flatMap_cons, drawAll_append_events, List.filterMap_append]

theorem logAll_append (s : Scope) (calls calls' : List Call) :
    s.logAll (calls ++ calls') = s.logAll calls ++ (s.performAll calls).logAll calls' := by
  induction calls generalizing s with
  | nil => rfl
  | cons call calls ih =>
    simp only [List.cons_append, logAll, ih, List.append_assoc]
    rfl

theorem label_perform (s : Scope) (call : Call) : (s.perform call).label = s.label := by
  rw [perform_eq_drawAll, label_drawAll]

theorem filterMap_batch?_logAll (s : Scope) (calls : List Call) :
    (s.logAll calls).filterMap LogEntry.batch? = calls.filterMap (Call.opened? s.label) := by
  induction calls generalizing s with
  | nil => rfl
  | cons call calls ih =>
    rw [logAll, List.filterMap_append, ih, label_perform]
    cases call with
    | draw ty =>
      rw [log, filterMap_batch?_map]
      rfl
    | rename batch =>
      obtain ⟨events, hl, -⟩ := exists_log_nameAll s batch.sorted
      rw [log, log_rename, hl, List.filterMap_cons, filterMap_batch?_map]
      rfl

/-- The log of a run tells which families came in, which draws changed nothing, and what each batch
was answered with. -/
theorem log_faithful (s : Scope) (calls : List Call) :
    let log := s.logAll calls
    let s' := s.performAll calls
    let created := creations (eventsOf log)
    (created.map Prod.fst).Nodup ∧
    (∀ key, key ∈ created.map Prod.fst ↔ s.family? key = none ∧ ∃ f, s'.family? key = some f) ∧
    (∀ key base, (key, base) ∈ created → ∃ f, s'.family? key = some f ∧ f.candidates = [base]) ∧
    (eventsOf log).filterMap Event.kept? = s.idleTypes (calls.flatMap Call.types) ∧
    log.filterMap LogEntry.batch? = calls.filterMap (Call.opened? s.label) ∧
    ∀ (before after : List Call) (batch : Batch), calls = before ++ .rename batch :: after →
      let naming := (s.performAll before).rename batch
      ∃ events : List Event,
        log = s.logAll before ++ (.batch s.label batch.size :: events.map (.event true)) ++
          naming.scope.logAll after ∧
        (events.filterMap Event.named?).map Prod.fst = naming.names ∧
        ∀ n ∈ events.filterMap Event.named?, batch.get? n.1.1 = some n.2 := by
  intro log s' created
  have hc : created = creations (s.drawAll (calls.flatMap Call.types)).events :=
    filterMap_eventsOf_logAll (fun _ _ _ ↦ rfl) s calls
  have hg : Gains s created s' := by
    rw [hc]
    simp only [s', performAll_eq_drawAll]
    exact gains_drawAll s _
  refine ⟨hg.nodup, hg.grown, fun key base hm ↦ hg.base hm, ?_, filterMap_batch?_logAll s calls, ?_⟩
  · rw [← filterMap_kept?_events]
    exact filterMap_eventsOf_logAll (fun _ _ _ ↦ rfl) s calls
  · rintro before after batch rfl
    intro naming
    obtain ⟨events, hl, hn, hm, -⟩ := exists_log_nameAll (s.performAll before) batch.sorted
    have hlabel : (s.performAll before).label = s.label := by
      rw [performAll_eq_drawAll, label_drawAll]
    refine ⟨events, ?_, hn, fun n hn ↦ ?_⟩
    · simp only [log, logAll_append]
      rw [logAll, Scope.log, log_rename, hl, hlabel, List.append_assoc]
      rfl
    · exact Table.get?_eq_some_iff.2 (batch.sorted_perm.mem_iff.1 (hm n hn))

theorem log_faithful_batch :
    let s := new ⟨"Demo", "run", "()V"⟩
    let batch : Batch := .ofList [(⟨1, 0⟩, "demo.Widget"), (⟨0, 0⟩, "this"), (⟨2, 0⟩, "foo")]
    let calls : List Call := [.draw "Widget", .rename batch, .draw "foo"]
    let naming := (s.draw "Widget").scope.rename batch
    (s.logAll calls).filterMap LogEntry.batch? = [(("Demo.run()V" : Text), 3)] ∧
      ∃ events : List Event,
        s.logAll calls =
          [.event false (.created "widget" "widget")] ++
            (.batch "Demo.run()V" 3 :: events.map (.event true)) ++
            naming.scope.logAll [.draw "foo"] ∧
        (events.filterMap Event.named?).map Prod.fst = naming.names := by
  intro s batch calls naming
  obtain ⟨-, -, -, -, hb, hr⟩ := log_faithful s calls
  obtain ⟨events, hl, hn, -⟩ := hr [.draw "Widget"] [.draw "foo"] batch rfl
  have hw : s.logAll [.draw "Widget"] = [.event false (.created "widget" "widget")] := by
    decide +kernel
  have hs : s.label = ("Demo.run()V" : Text) := by decide
  have hz : batch.size = 3 := by decide
  rw [hw, hs, hz] at hl
  exact ⟨by rw [hb]; decide, events, hl, hn⟩

end Scope

end LocalNames
