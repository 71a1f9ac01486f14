import Switchboard.Proofs.WellFormed

/-!
Directives that come again. A list of `cmd` does what its two parts do one after the other,
wherever a comma cuts it (`Directives.addCommand_append`), since a token that came up before
finds all that it asks for in its place (`Directives.Covers`). So tokens that came up once can
be left out wherever they stand later on. A `map` that is entered a second time finds under
each key the route that it has left there.
-/

namespace Switchboard

/-- A comma separates the items in front of it from those behind it. -/
theorem Path.items_append (a b : String) : items (a ++ "," ++ b) = items a ++ items b := by
  have hlist : (a ++ "," ++ b).toList = a.toList ++ ',' :: b.toList := by
    simp [String.toList_append]
  rw [items, hlist, Text.pieces_append, List.map_append, items, items]

namespace Directives

variable {d d' : Directives} {token : String}

/-! ## Tokens that add nothing -/

theorem Covers.of_extends (h : d.Covers token) (he : d.Extends d') : d'.Covers token := by
  unfold Covers at *
  split at h
  · next owner path _ => exact (he.libraries owner).subset h
  · exact he.methods.subset h
  · trivial

theorem foldl_enter_of_covers {tokens : List String} (h : ∀ token ∈ tokens, d.Covers token) :
    tokens.foldl enter d = d := by
  induction tokens with
  | nil => rfl
  | cons token tokens ih =>
    rw [List.foldl_cons, enter_of_covers (h token List.mem_cons_self)]
    exact ih fun t ht => h t (List.mem_cons_of_mem _ ht)

/-! ## Lists of `cmd` -/

/-- A list does what its two parts do one after the other. -/
theorem addCommand_append (d : Directives) (a b : String) :
    d.addCommand (a ++ "," ++ b) = (d.addCommand a).addCommand b := by
  simp only [addCommand_eq_foldl_items, Path.items_append, List.foldl_append]

/-! ## Texts one after the other -/

/-- Enters a `cmd` and a `map`, each where it is given, for each of the requests. -/
def addAll (d : Directives) (requests : List (Option String × Option String)) : Directives :=
  requests.foldl (fun d r => d.add r.1 r.2) d

/-- The tokens of all the `cmd` texts. -/
def tokensOf (requests : List (Option String × Option String)) : List String :=
  requests.flatMap fun r => (r.1.map Path.tokens).getD []

theorem extends_add (d : Directives) (cmd map : Option String) : d.Extends (d.add cmd map) := by
  have hmap : ∀ d : Directives, d.Extends (d.add none map) := by
    intro d
    cases map with
    | none => exact .refl d
    | some map => exact d.extends_addMap map
  cases cmd with
  | none => exact hmap d
  | some cmd => exact (d.extends_addCommand cmd).trans (hmap _)

theorem extends_addAll (d : Directives) (requests : List (Option String × Option String)) :
    d.Extends (d.addAll requests) := by
  induction requests generalizing d with
  | nil => exact .refl d
  | cons r requests ih => exact (d.extends_add r.1 r.2).trans (ih _)

theorem covers_addAll (d : Directives) {requests : List (Option String × Option String)}
    (h : token ∈ tokensOf requests) : (d.addAll requests).Covers token := by
  induction requests generalizing d with
  | nil => cases h
  | cons r requests ih =>
    rw [tokensOf, List.flatMap_cons, List.mem_append] at h
    rcases h with hfirst | hlater
    · obtain ⟨cmd, map⟩ := r
      cases cmd with
      | none => cases hfirst
      | some cmd =>
        have hcovers : (d.addCommand cmd).Covers token := covers_foldl_enter d hfirst
        have hmap : (d.addCommand cmd).Extends (d.add (some cmd) map) :=
          extends_add (d.addCommand cmd) none map
        exact hcovers.of_extends (hmap.trans (extends_addAll _ requests))
    · exact ih _ hlater

/-! ## The same `map` again -/

/-- What a token of a `map` reads as is not up to the routes. -/
theorem route?_addMap (d : Directives) (raw : String) : (d.addMap raw).route? = d.route? := by
  obtain ⟨routes, heq⟩ := d.exists_addMap_eq raw
  rw [heq]
  rfl

theorem addMap_addMap (d : Directives) (raw : String) :
    (d.addMap raw).addMap raw = d.addMap raw := by
  have hfrom : ∀ key, (d.addMap raw).routeFrom? key = d.routeFrom? key := by
    intro key
    unfold routeFrom?
    rw [route?_addMap]
  have hroutes : ((d.addMap raw).addMap raw).routes = (d.addMap raw).routes := by
    refine Routes.ext (Table.ext_of_get? ?_ fun key => ?_)
    · rw [routes_addMap (d.addMap raw), Routes.keys_foldl_insert, route?_addMap, routes_addMap,
        Routes.keys_foldl_insert]
      exact foldl_appendNew_of_subset fun key hkey => mem_foldl_appendNew.mpr (.inr hkey)
    · have hagain := get?_routes_addMap (d.addMap raw) raw key
      rw [hfrom, get?_routes_addMap d, ← Option.or_assoc, Option.or_self,
        ← get?_routes_addMap d] at hagain
      exact hagain
  exact Directives.ext (by rw [modules_addMap]) (by rw [methods_addMap]) hroutes

/-- **Directives that come again.** A list of `cmd` does what its parts do one after the
other, with all that it leaves in the same order. So to enter it again changes nothing, and
neither do tokens that came up before, be it in an earlier text or farther in front in the
same one. To enter a `map` again changes nothing either. -/
theorem repetition_changes_nothing (d : Directives) :
    (∀ a b, d.addCommand (a ++ "," ++ b) = (d.addCommand a).addCommand b) ∧
    (∀ a, (d.addCommand a).addCommand a = d.addCommand a) ∧
    (∀ requests c, Path.tokens c ⊆ tokensOf requests →
      (d.addAll requests).addCommand c = d.addAll requests) ∧
    (∀ requests a c b, Path.tokens c ⊆ tokensOf requests ++ Path.tokens a →
      (d.addAll requests).addCommand (a ++ "," ++ c ++ "," ++ b) =
        (d.addAll requests).addCommand (a ++ "," ++ b)) ∧
    (∀ raw, (d.addMap raw).addMap raw = d.addMap raw) := by
  refine ⟨d.addCommand_append, fun a => ?_, fun requests c hc => ?_, fun requests a c b hc => ?_,
    d.addMap_addMap⟩
  · exact foldl_enter_of_covers fun token htoken => covers_foldl_enter d htoken
  · exact foldl_enter_of_covers fun token htoken => d.covers_addAll (hc htoken)
  · have hagain : ((d.addAll requests).addCommand a).addCommand c =
        (d.addAll requests).addCommand a := by
      refine foldl_enter_of_covers fun token htoken => ?_
      rcases List.mem_append.mp (hc htoken) with hearlier | hsame
      · exact (d.covers_addAll hearlier).of_extends (extends_addCommand _ a)
      · exact covers_foldl_enter _ hsame
    rw [addCommand_append, addCommand_append, hagain, addCommand_append]

namespace Repeated

def requests : List (Option String × Option String) :=
  [(some "m\\l,run", some "m\\l\\run:x"), (none, some "m\\l\\run:y")]

theorem tokensOf_requests : tokensOf requests = ["m\\l", "run"] := by
  decide +kernel

end Repeated

/-- Tokens of the first request are left out, by themselves and between others. -/
theorem repeated_tokens_are_left_out :
    (empty.addAll Repeated.requests).addCommand "run,m\\l,run" =
      empty.addAll Repeated.requests ∧
    (empty.addAll Repeated.requests).addCommand ("m\\k" ++ "," ++ "run,m\\k" ++ "," ++ "stop") =
      (empty.addAll Repeated.requests).addCommand ("m\\k" ++ "," ++ "stop") := by
  obtain ⟨-, -, halone, hbetween, -⟩ := repetition_changes_nothing empty
  refine ⟨halone _ _ ?_, hbetween _ _ _ _ ?_⟩
  · rw [Repeated.tokensOf_requests]
    decide +kernel
  · rw [Repeated.tokensOf_requests]
    decide +kernel

end Directives

end Switchboard
