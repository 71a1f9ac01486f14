import Mathlib.Data.List.Forall2
import Switchboard.Proofs.Protocol

/-!
Two runs side by side. What the methods answer, how the zone is set and what has run
before may differ between the two, and so may all that they keep and route. If the hooks
that they come to end alike, though, they work on the libraries of the same modules
(`HooksAgree.exists_found`); and runs that go through the same work can be compared
moment by moment (`forall₂_moments`).
-/

namespace Switchboard

/-! ## Libraries that differ in their answers -/

/-- The same methods and the same contract; the answers are open. -/
structure Library.SameFace (l l' : Library) : Prop where
  methods : l.methods = l'.methods
  contract : l.contract = l'.contract

/-- Every path finds nothing in both catalogs, or libraries of the same face. -/
def Catalog.SameFaces (c c' : Catalog) : Prop :=
  ∀ path, Option.Rel Library.SameFace (c.library? path) (c'.library? path)

namespace Library.SameFace

variable {l l' : Library}

theorem declares (h : l.SameFace l') (method : String) :
    l.declares method = l'.declares method := by
  rw [Library.declares, Library.declares, h.methods]

theorem plan (h : l.SameFace l') (z : SafeZone) (requested : MethodList) :
    z.plan l requested = z.plan l' requested := by
  have hd : l.declares = l'.declares := funext h.declares
  simp only [SafeZone.plan, SafeZone.candidates, h.contract, hd]

theorem authorize (h : l.SameFace l') (z : SafeZone) (method : String) (input : Input) :
    z.authorize l method input = z.authorize l' method input := by
  simp only [SafeZone.authorize, h.contract]

end Library.SameFace

theorem Catalog.SameFaces.exists_library {c c' : Catalog} (h : c.SameFaces c') {path : String}
    {l : Library} (hl : c.library? path = some l) :
    ∃ l', c'.library? path = some l' ∧ l.SameFace l' := by
  have hrel := h path
  rw [hl] at hrel
  generalize c'.library? path = found at hrel
  cases hrel with
  | some hface => exact ⟨_, rfl, hface⟩

namespace Pass

variable {p q : Pass} {s t : Progress}

/-! ## Hooks that end alike -/

/-- The hook of a module that both runs come to ends alike in both. -/
def HooksAgree (p : Pass) (s : Progress) (q : Pass) (t : Progress) : Prop :=
  ∀ owner u v, ⟨.enter owner, u⟩ ∈ p.moments s → ⟨.enter owner, v⟩ ∈ q.moments t →
    p.catalog.runHook? owner u.events = q.catalog.runHook? owner v.events

theorem HooksAgree.symm (h : HooksAgree p s q t) : HooksAgree q t p s :=
  fun owner v u hv hu => (h owner u v hu hv).symm

theorem readiness_congr {owner : String} {past past' : History}
    (h : p.catalog.runHook? owner past = q.catalog.runHook? owner past') :
    p.readiness owner past = q.readiness owner past' := by
  unfold readiness
  rw [h]

/-- Runs that are asked for the same modules come to the same ones and find them alike. -/
theorem HooksAgree.exists_found (h : HooksAgree p s q t)
    (hmodules : p.directives.modules = q.directives.modules) (hp : p.isIdle s = false)
    (hq : q.isIdle t = false) :
    ∃ entries found, p.agenda s = p.agendaOf entries found ∧
      q.agenda t = q.agendaOf entries found := by
  obtain ⟨found, hacts, hfound⟩ := exists_agenda_eq hp
  obtain ⟨found', hacts', hfound'⟩ := exists_agenda_eq hq
  rw [hmodules] at hacts
  have hsame : ∀ e ∈ visited found q.directives.modules.toList,
      e ∈ visited found' q.directives.modules.toList → found e.1 = found' e.1 := by
    intro e he he'
    obtain ⟨u, hu⟩ := (exists_enter_iff hacts e.1).mpr ⟨e, he, rfl⟩
    obtain ⟨v, hv⟩ := (exists_enter_iff hacts' e.1).mpr ⟨e, he', rfl⟩
    rw [hfound _ u hu, hfound' _ v hv, readiness_congr (h _ u v hu hv)]
  have hvisited := visited_congr hsame
  rw [← hvisited] at hsame hacts'
  exact ⟨_, found, hacts, hacts'.trans (agendaOf_congr fun e he => (hsame e he he).symm)⟩

section Subset

variable (hkeys : q.directives.modules.table.keys ⊆ p.directives.modules.table.keys)
  (hp : p.isIdle s = false) (hq : q.isIdle t = false)

include hkeys hp hq

/-- Where a run ends, a run over no more modules finds none of them otherwise. -/
theorem HooksAgree.readiness_eq (h : HooksAgree p s q t) (hends : p.ends s = true)
    {owner : String} {v : Progress} (hv : ⟨.enter owner, v⟩ ∈ q.moments t) :
    ∃ u, ⟨.enter owner, u⟩ ∈ p.moments s ∧
      p.readiness owner u.events = q.readiness owner v.events := by
  obtain ⟨found, hacts, -⟩ := exists_agenda_eq hq
  obtain ⟨e, he, rfl⟩ := (exists_enter_iff hacts owner).mp ⟨v, hv⟩
  have hkey := hkeys (List.mem_map_of_mem ((prefix_of_visited _ _).subset he))
  obtain ⟨e', he', howner⟩ := List.mem_map.mp hkey
  obtain ⟨u, hu⟩ := exists_enter_moment hp hends he'
  rw [howner] at hu
  exact ⟨u, hu, readiness_congr (h _ u v hu hv)⟩

/-- If the one ends, so does the other. -/
theorem HooksAgree.ends (h : HooksAgree p s q t) (hends : p.ends s = true) : q.ends t = true := by
  refine (ends_iff q t).mpr fun owner v hv => ?_
  obtain ⟨u, hu, heq⟩ := h.readiness_eq hkeys hp hq hends hv
  rw [← heq]
  exact (ends_iff p s).mp hends owner u hu

end Subset

/-! ## The same work -/

/-- What holds of each two moments of the same work holds all along. -/
theorem forall₂_trail {R : Moment → Moment → Prop} {as : List Act}
    (h : ∀ m ∈ p.trail as s, ∀ m' ∈ q.trail as t, m.act = m'.act → R m m') :
    List.Forall₂ R (p.trail as s) (q.trail as t) := by
  induction as generalizing s t with
  | nil => exact .nil
  | cons a as ih =>
    refine .cons (h _ List.mem_cons_self _ List.mem_cons_self rfl) (ih ?_)
    intro m hm m' hm'
    exact h m (List.mem_cons_of_mem _ hm) m' (List.mem_cons_of_mem _ hm')

theorem forall₂_moments {R : Moment → Moment → Prop} (hacts : p.agenda s = q.agenda t)
    (h : ∀ m ∈ p.moments s, ∀ m' ∈ q.moments t, m.act = m'.act → R m m') :
    List.Forall₂ R (p.moments s) (q.moments t) := by
  unfold moments at h ⊢
  rw [← hacts] at h ⊢
  exact forall₂_trail h

end Pass

end Switchboard
