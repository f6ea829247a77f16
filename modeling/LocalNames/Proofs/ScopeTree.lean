import LocalNames.Proofs.Batch
import LocalNames.Proofs.Numbering

namespace LocalNames.ScopeTree

open Scope

/-- The link of a scope to another one: the place of that scope in the tree, how many names it had
issued by then, and the state it was in. -/
structure Link where
  parent : Nat
  mark : Nat
  state : Scope

structure Node where
  start : Scope
  scope : Scope
  issued : List Issue
  answers : List Text
  link? : Option Link

def Node.begin (s : Scope) (link? : Option Link) : Node := ⟨s, s, [], [], link?⟩

def Node.perform (n : Node) (call : Call) : Node :=
  { n with
    scope := n.scope.perform call
    issued := n.issued ++ n.scope.issued call
    answers := n.answers ++ n.scope.answer call }

/-- The state that a scope is left in when it asks to be linked to another one. If it is refused
it stays as it was. -/
def join (s parent : Scope) : Scope :=
  match (s.addParent (.scope parent)).1 with
  | .ok child => child
  | .error _ => s

/-- The ways to make a scope that continues another one's numbering. A scope that joins a parent
has been seeded from some options and has not named anything. -/
inductive Continues (parent : Scope) : Scope → Prop
  | nested (method : Method) : Continues parent (.nested method parent)
  | copy : Continues parent parent
  | joined (method : Method) (o : Options) : Continues parent (join (seeded method o) parent)

/-- The trees of scopes that grow from a scope with the builtin families, its scopes being linked
and asked for names in any order. -/
inductive Grown : List Node → Prop
  | root (method : Method) : Grown [.begin (.new method) none]
  | link {t : List Node} {p : Nat} {n : Node} {child : Scope} (h : Grown t) (hp : t[p]? = some n)
      (hc : Continues n.scope child) :
      Grown (t ++ [.begin child (some ⟨p, n.issued.length, n.scope⟩)])
  | call {t : List Node} {i : Nat} {n : Node} (h : Grown t) (hi : t[i]? = some n) (call : Call) :
      Grown (t.set i (n.perform call))

/-- The scopes that a link leads to, with what the scopes on the way down had issued each when the
next one was linked to it. -/
inductive Below (t : List Node) (link : Link) : List Issue → Nat → Prop
  | child {i : Nat} {n : Node} (hi : t[i]? = some n) (hl : n.link? = some link) :
      Below t link [] i
  | step {between : List Issue} {i : Nat} {p n : Node} {link' : Link}
      (h : Below t link between link'.parent) (hp : t[link'.parent]? = some p)
      (hi : t[i]? = some n) (hl : n.link? = some link') :
      Below t link (between ++ p.issued.take link'.mark) i

theorem Continues.numbering_eq {parent child : Scope} (h : Continues parent child) (key : Text) :
    child.numbering key = parent.numbering key := by
  cases h with
  | nested method => rfl
  | copy => rfl
  | joined method o => rfl

structure Linked (link : Link) (parent child : Node) : Prop where
  mark_le : link.mark ≤ parent.issued.length
  before : Leads parent.start (parent.issued.take link.mark) link.state
  after : Leads link.state (parent.issued.drop link.mark) parent.scope
  start (key : Text) : child.start.numbering key = link.state.numbering key

theorem Linked.perform_parent {link : Link} {parent child : Node} (h : Linked link parent child)
    (call : Call) : Linked link (parent.perform call) child := by
  have hm := h.mark_le
  constructor
  · simp only [Node.perform, List.length_append]
    omega
  · simp only [Node.perform, List.take_append_of_le_length hm]
    exact h.before
  · simp only [Node.perform, List.drop_append_of_le_length hm]
    exact h.after.trans (leads_perform parent.scope call)
  · exact h.start

theorem Linked.perform_child {link : Link} {parent child : Node} (h : Linked link parent child)
    (call : Call) : Linked link parent (child.perform call) :=
  ⟨h.mark_le, h.before, h.after, h.start⟩

section Update

variable {t : List Node} {i j : Nat} {m n : Node} {call : Call}

theorem getElem?_set_perform (hj : t[j]? = some m) (hi : t[i]? = some n) :
    (t.set j (m.perform call))[i]? = some (if j = i then n.perform call else n) := by
  by_cases h : j = i
  · subst h
    rw [hj] at hi
    cases hi
    rw [List.getElem?_set_self (List.getElem?_eq_some_iff.1 hj).1, if_pos rfl]
  · rw [List.getElem?_set_ne h, if_neg h, hi]

theorem exists_of_getElem?_set_perform (hj : t[j]? = some m)
    (hi : (t.set j (m.perform call))[i]? = some n) :
    ∃ n', t[i]? = some n' ∧ n = if j = i then n'.perform call else n' := by
  have hlt := (List.getElem?_eq_some_iff.1 hi).1
  rw [List.length_set] at hlt
  obtain ⟨n', hn'⟩ : ∃ n', t[i]? = some n' := ⟨_, List.getElem?_eq_getElem hlt⟩
  rw [getElem?_set_perform hj hn', Option.some_inj] at hi
  exact ⟨n', hn', hi.symm⟩

end Update

theorem getElem?_append_singleton {t : List Node} {i : Nat} {m n : Node}
    (h : (t ++ [m])[i]? = some n) : t[i]? = some n ∨ n = m := by
  rw [List.getElem?_append] at h
  split at h
  · exact .inl h
  · rw [List.getElem?_singleton] at h
    split at h
    · exact .inr (Option.some.inj h).symm
    · cases h

theorem Grown.leads {t : List Node} (h : Grown t) :
    ∀ {i : Nat} {n : Node}, t[i]? = some n → n.start.Distinct ∧ Leads n.start n.issued n.scope := by
  induction h with
  | root method =>
    intro i n hi
    obtain rfl := List.mem_singleton.1 (List.mem_of_getElem? hi)
    exact ⟨distinct_new method, .of_numbering_eq fun _ ↦ rfl⟩
  | @link t p parent child h hp hc ih =>
    intro i n hi
    rcases getElem?_append_singleton hi with hi | rfl
    · exact ih hi
    · obtain ⟨hd, hl⟩ := ih hp
      refine ⟨fun key ↦ ?_, .of_numbering_eq fun _ ↦ rfl⟩
      have hk := hd.of_leads hl key
      rwa [← hc.numbering_eq] at hk
  | @call t j m h hj call ih =>
    intro i n hi
    obtain ⟨n', hi', rfl⟩ := exists_of_getElem?_set_perform hj hi
    obtain ⟨hd, hl⟩ := ih hi'
    split
    · exact ⟨hd, hl.trans (leads_perform n'.scope call)⟩
    · exact ⟨hd, hl⟩

theorem Grown.linked {t : List Node} (h : Grown t) :
    ∀ {i : Nat} {n : Node} {link : Link}, t[i]? = some n → n.link? = some link →
      ∃ parent, t[link.parent]? = some parent ∧ Linked link parent n := by
  induction h with
  | root method =>
    intro i n link hi hl
    obtain rfl := List.mem_singleton.1 (List.mem_of_getElem? hi)
    cases hl
  | @link t p parent child h hp hc ih =>
    intro i n link hi hl
    have hlt {k : Nat} {m : Node} (hk : t[k]? = some m) {l : List Node} :
        (t ++ l)[k]? = some m := by
      rwa [List.getElem?_append_left (List.getElem?_eq_some_iff.1 hk).1]
    rcases getElem?_append_singleton hi with hi | rfl
    · obtain ⟨a, ha, hla⟩ := ih hi hl
      exact ⟨a, hlt ha, hla⟩
    · cases hl
      refine ⟨parent, hlt hp, le_rfl, ?_, ?_, hc.numbering_eq⟩
      · rw [List.take_length]
        exact (h.leads hp).2
      · rw [List.drop_length]
        exact .of_numbering_eq fun _ ↦ rfl
  | @call t j m h hj call ih =>
    intro i n link hi hl
    obtain ⟨n', hi', rfl⟩ := exists_of_getElem?_set_perform hj hi
    have hl' : n'.link? = some link := by
      rw [← hl]
      split <;> rfl
    obtain ⟨a, ha, hla⟩ := ih hi' hl'
    refine ⟨_, getElem?_set_perform hj ha, ?_⟩
    have hc : Linked link a (if j = i then n'.perform call else n') := by
      split
      · exact hla.perform_child call
      · exact hla
    split
    · exact hc.perform_parent call
    · exact hc

/-- Down from a link the numberings go on without a gap, from one scope to the next. -/
theorem Below.leads {t : List Node} (h : Grown t) {link : Link} {between : List Issue} {i : Nat}
    (hb : Below t link between i) : ∀ {n : Node}, t[i]? = some n →
      Leads link.state between n.start ∧
        ∃ a, t[link.parent]? = some a ∧ ∃ c, Linked link a c := by
  induction hb with
  | @child i m hi hl =>
    intro n hn
    rw [hi] at hn
    cases hn
    obtain ⟨a, ha, hla⟩ := h.linked hi hl
    exact ⟨.of_numbering_eq hla.start, a, ha, m, hla⟩
  | @step between i p m link' hb hp hi hl ih =>
    intro n hn
    rw [hi] at hn
    cases hn
    obtain ⟨hbp, ha⟩ := ih hp
    obtain ⟨p', hp', hlp⟩ := h.linked hi hl
    rw [hp] at hp'
    cases hp'
    have hs : Leads link'.state [] m.start := .of_numbering_eq hlp.start
    have hm := (hbp.trans hlp.before).trans hs
    rw [List.append_nil] at hm
    exact ⟨hm, ha⟩

theorem Node.map_name_perform {n : Node} (h : n.issued.map Issue.name = n.answers) (call : Call) :
    (n.perform call).issued.map Issue.name = (n.perform call).answers := by
  simp only [perform, List.map_append, h, map_name_issued]

theorem Grown.map_name_issued {t : List Node} (h : Grown t) :
    ∀ m ∈ t, m.issued.map Issue.name = m.answers := by
  induction h with
  | root method => exact List.forall_mem_singleton.2 rfl
  | link h hp hc ih =>
    intro m hm
    rcases List.mem_append.1 hm with hm | hm
    · exact ih m hm
    · rw [List.mem_singleton.1 hm]
      rfl
  | call h hi call ih =>
    intro m hm
    rcases List.mem_or_eq_of_mem_set hm with hm | rfl
    · exact ih m hm
    · exact Node.map_name_perform (ih _ (List.mem_of_getElem? hi)) call

end LocalNames.ScopeTree
