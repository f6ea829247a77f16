import LocalNames.Proofs.Call
import LocalNames.Proofs.Document

namespace LocalNames

open LocalNames.TypeName Options

namespace Document

/-- The document has neither a family for a spelling of the type nor a redirection of it, and no
family of its own where the builtin redirection of the type leads. -/
structure LeavesAlone (d : Document) (ty : Text) : Prop where
  collapsed : collapse ty ∉ d.ownKeys
  lowered : lowercase (collapse ty) ∉ d.ownKeys
  derived : key ty ∉ d.ownKeys
  source : ty ∉ d.ownRemaps.keys
  target : ∀ target ∈ builtinRemaps.get? ty, target ∉ d.ownKeys

theorem leavesAlone_iff {d : Document} {ty : Text} : d.LeavesAlone ty ↔
    ([collapse ty, lowercase (collapse ty), key ty].all (!d.ownKeys.contains ·) ∧
      !d.ownRemaps.keys.contains ty) ∧ (builtinRemaps.get? ty).all (!d.ownKeys.contains ·) := by
  have hn {t : Text} {texts : List Text} : (!texts.contains t) = true ↔ t ∉ texts := by
    rw [Bool.not_eq_true', ← Bool.not_eq_true, List.contains_iff_mem]
  simp only [List.all_cons, List.all_nil, Bool.and_true, Bool.and_eq_true, Option.all_eq_true, hn]
  constructor
  · exact fun h ↦ ⟨⟨⟨h.collapsed, h.lowered, h.derived⟩, h.source⟩, h.target⟩
  · rintro ⟨⟨⟨hc, hl, hk⟩, hs⟩, ht⟩
    exact ⟨hc, hl, hk, hs, ht⟩

instance (d : Document) (ty : Text) : Decidable (d.LeavesAlone ty) :=
  decidable_of_iff _ leavesAlone_iff.symm

/-- Two scopes, the second with the builtin redirections, that differ at most in what a document has
of its own. -/
structure Apart (d : Document) (s t : Scope) : Prop where
  families {key : Text} : key ∉ d.ownKeys → s.family? key = t.family? key
  remaps {source : Text} : source ∉ d.ownRemaps.keys → s.remap? source = t.remap? source
  builtin (source : Text) : t.remap? source = builtinRemaps.get? source

variable {d : Document} {s t : Scope} {ty key : Text}

theorem Apart.put (h : d.Apart s t) (key : Text) (f : Family) :
    d.Apart (s.put key f) (t.put key f) := by
  refine ⟨fun {key'} hk ↦ ?_, fun {source} hs ↦ h.remaps hs, h.builtin⟩
  rw [Scope.family?_put, Scope.family?_put, h.families hk]

theorem Apart.numbering_eq (h : d.Apart s t) (hk : key ∉ d.ownKeys) :
    s.numbering key = t.numbering key := by
  rw [Scope.numbering, h.families hk, Scope.numbering]

theorem Apart.source_eq (h : d.Apart s t) (ht : d.LeavesAlone ty) : s.source ty = t.source ty := by
  have hc := h.families ht.collapsed
  have hl := h.families ht.lowered
  have hr := h.remaps ht.source
  have ho := Scope.resolution_source t ty
  -- what the second scope finds at each step of the search, the first finds too
  apply Scope.Resolution.eq_source
  generalize t.source ty = source at ho
  cases ho with
  | exact hf => exact .exact (hc.trans hf)
  | lowered hc' hf => exact .lowered (hc.trans hc') (hl.trans hf)
  | remapped hc' hl' hr' => exact .remapped (hc.trans hc') (hl.trans hl') (hr.trans hr')
  | derived hc' hl' hr' hd => exact .derived (hc.trans hc') (hl.trans hl') (hr.trans hr') hd
  | typeName hc' hl' hr' hd => exact .typeName (hc.trans hc') (hl.trans hl') (hr.trans hr') hd

theorem Apart.not_mem_ownKeys (h : d.Apart s t) (ht : d.LeavesAlone ty)
    (hk : (t.source ty).key? = some key) : key ∉ d.ownKeys := by
  have ho := Scope.resolution_source t ty
  generalize t.source ty = source at ho hk
  cases ho with
  | exact =>
    cases hk
    exact ht.collapsed
  | lowered =>
    cases hk
    exact ht.lowered
  | remapped _ _ hr =>
    cases hk
    exact ht.target key ((h.builtin ty).symm.trans hr)
  | derived =>
    cases hk
    exact ht.derived
  | typeName => cases hk

theorem Apart.drawnKey?_eq (h : d.Apart s t) (ht : d.LeavesAlone ty) :
    s.drawnKey? ty = t.drawnKey? ty := by
  unfold Scope.drawnKey?
  rw [h.source_eq ht]
  cases hs : t.source ty with
  | family key =>
    have hk : key ∉ d.ownKeys := h.not_mem_ownKeys ht (congrArg Source.key? hs)
    simp only [h.families hk]
  | derived key base => rfl
  | typeName => rfl

theorem Apart.draw (h : d.Apart s t) (ht : d.LeavesAlone ty) :
    (s.draw ty).name = (t.draw ty).name ∧ d.Apart (s.draw ty).scope (t.draw ty).scope := by
  have he := h.drawnKey?_eq ht
  cases hd : t.drawnKey? ty with
  | none =>
    rw [Scope.draw_of_drawnKey?_eq_none hd, Scope.draw_of_drawnKey?_eq_none (he.trans hd)]
    exact ⟨rfl, h⟩
  | some key =>
    obtain ⟨hn, hs⟩ := Scope.draw_of_drawnKey? (he.trans hd)
    obtain ⟨hn', hs'⟩ := Scope.draw_of_drawnKey? hd
    have hk : key ∉ d.ownKeys := h.not_mem_ownKeys ht (Scope.key?_source_of_drawnKey? hd)
    rw [hn, hn', hs, hs', h.numbering_eq hk]
    exact ⟨rfl, h.put key _⟩

theorem Apart.drawAll (h : d.Apart s t) {tys : List Text} (ht : ∀ ty ∈ tys, d.LeavesAlone ty) :
    (s.drawAll tys).names = (t.drawAll tys).names ∧
      d.Apart (s.drawAll tys).scope (t.drawAll tys).scope := by
  induction tys generalizing s t with
  | nil => exact ⟨rfl, h⟩
  | cons ty tys ih =>
    obtain ⟨hn, ha⟩ := h.draw (ht ty List.mem_cons_self)
    obtain ⟨hns, has⟩ := ih ha fun ty' hm ↦ ht ty' (List.mem_cons_of_mem _ hm)
    refine ⟨?_, has⟩
    simp only [Scope.drawAll, hn, hns]

theorem apart_new (method : Method)
    (hf : ∀ key, s.family? key = (Seed.last? key d.ownFamilies).or (Seed.last? key builtinFamilies))
    (hr : ∀ source, s.remap? source = (d.ownRemaps.get? source).or (builtinRemaps.get? source)) :
    d.Apart s (.new method) := by
  refine ⟨fun {key} hk ↦ ?_, fun {source} hs ↦ ?_, fun _ ↦ rfl⟩
  · rw [hf, Seed.last?_eq_none hk, Option.none_or]
    exact (Scope.family?_seeded_eq_last? method .builtin key).symm
  · rw [hr, Table.get?_eq_none_iff.2 hs, Option.none_or]
    rfl

/-- What a document adds to the builtin conventions does not show where it is not concerned. -/
theorem names_left_alone {d : Document} (h : d.extendBuiltins = true)
    (hv : d.toOptions.validate = .ok ()) (method method' : Method) :
    ∃ s, Scope.withOptions method d.toOptions = .ok s ∧
      ∀ tys : List Text, (∀ ty ∈ tys, d.LeavesAlone ty) →
        (s.drawAll tys).names = ((Scope.new method').drawAll tys).names ∧
        ∀ key, key ∉ d.ownKeys → (s.drawAll tys).scope.family? key =
          ((Scope.new method').drawAll tys).scope.family? key := by
  obtain ⟨s, hs, hf, hr⟩ := exists_withOptions_of_extends h hv method
  have ha : d.Apart s (.new method') := apart_new method' hf hr
  refine ⟨s, hs, fun tys ht ↦ ?_⟩
  obtain ⟨hn, ha'⟩ := ha.drawAll ht
  exact ⟨hn, fun key hk ↦ ha'.families hk⟩

theorem names_left_alone_widget :
    let d : Document :=
      ⟨true, some [⟨"widget", ["w"], 0, true⟩, ⟨"char", ["ch"], 0, true⟩],
        some (.ofList [("foo", "widget")])⟩
    let method : Method := ⟨"Demo", "run", "()V"⟩
    let tys : List Text := ["long", "Widget[]", "bar", "WIDGET...", "INT"]
    (∀ ty ∈ tys, d.LeavesAlone ty) ∧ ∃ s, Scope.withOptions method d.toOptions = .ok s ∧
      (s.drawAll tys).names = (["i", "awidget", "bar", "awidget1", "j"] : List Text) ∧
      (s.drawAll tys).scope.family? "int" = some ⟨["i", "j", "k", "l"], 2, true⟩ := by
  intro d method tys
  have ht : ∀ ty ∈ tys, d.LeavesAlone ty := by decide +kernel
  obtain ⟨s, hs, ha⟩ := names_left_alone (d := d) rfl (by decide) method method
  obtain ⟨hn, hf⟩ := ha tys ht
  refine ⟨ht, s, hs, ?_, ?_⟩
  · rw [hn]
    decide +kernel
  · rw [hf _ (by decide)]
    decide +kernel

end Document

end LocalNames
