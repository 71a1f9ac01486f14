import Switchboard.Proofs.Repetition
import Switchboard.Proofs.TokenGrammar

/-!
What becomes of one list of `cmd`. Its methods, its modules and the libraries of each module
stand in the order in which the list first comes to them, and each stands once, however the
items are mixed (`Directives.items_are_grouped`). An item that reads as nothing leaves the
registries as they are, and what any other item asks for is there.
-/

namespace Switchboard

namespace Directives

/-! ## Items that read as nothing -/

theorem enter_of_unread (d : Directives) {token : String} (h : Token.ofString? token = none) :
    d.enter token = d := by
  rw [enter, h]

/-- Only what reads as something needs to be entered. -/
theorem foldl_enter_filter (d : Directives) (tokens : List String) :
    (tokens.filter (Token.ofString? · ≠ none)).foldl enter d = tokens.foldl enter d := by
  rw [List.foldl_filter]
  congr
  funext d token
  by_cases h : Token.ofString? token = none
  · rw [if_neg (by simpa using h), d.enter_of_unread h]
  · rw [if_pos (by simpa using h)]

/-! ## The groups of a list -/

/-- Methods stand in the order of the items that first name them. -/
theorem methods_addCommand (raw : String) :
    (empty.addCommand raw).methods.toList =
      ((Path.items raw).filter fun t => t ≠ "" ∧ Path.separator ∉ t.toList).eraseDups := by
  have hmethod : (fun t => decide (Token.ofString? t = some (.method t))) =
      fun t => decide (t ≠ "" ∧ Path.separator ∉ t.toList) := by
    funext t
    rw [decide_eq_decide]
    exact Token.ofString?_eq_method_iff
  rw [addCommand_eq_foldl_items, methods_foldl_enter, hmethod]
  exact (eraseDups_append_eq_foldl List.nodup_nil _).symm

/-- **What one list of `cmd` comes to.** Methods are its names without a separator. Modules are
those that its items ask for, with the items of each. All of them stand once, in the order in
which the list first comes to them. Items that read as nothing leave no mark, and what any other
item asks for is there. -/
theorem items_are_grouped (raw : String) :
    (empty.addCommand raw).methods.toList =
      ((Path.items raw).filter fun t => t ≠ "" ∧ Path.separator ∉ t.toList).eraseDups ∧
    (empty.addCommand raw).modules.toList =
      ((Path.items raw).filterMap Token.owner?).eraseDups.map (fun owner =>
        (owner, ((Path.items raw).filter (Token.owner? · = some owner)).eraseDups)) ∧
    (empty.addCommand raw).routes = .empty ∧
    (∀ raw', (Path.items raw').filter (Token.ofString? · ≠ none) =
        (Path.items raw).filter (Token.ofString? · ≠ none) →
      empty.addCommand raw' = empty.addCommand raw) ∧
    ∀ token ∈ Path.items raw, (empty.addCommand raw).Covers token := by
  refine ⟨methods_addCommand raw, ?_, routes_addCommand empty raw, fun raw' hread => ?_,
    fun token htoken => ?_⟩
  · rw [Modules.toList_eq, keys_addCommand, Path.owners]
    exact List.map_congr_left fun owner _ => by rw [listed_addCommand]
  · rw [addCommand_eq_foldl_items, addCommand_eq_foldl_items, ← foldl_enter_filter, hread,
      foldl_enter_filter]
  · rw [addCommand_eq_foldl_items]
    exact covers_foldl_enter empty htoken

namespace Mixed

/-- Two modules take turns, a library comes again in its other spelling, and some items read as
nothing. -/
def command : String := "b\\one,run,a\\x,b\\,,run,\\b\\one,stop,a\\x,b\\two,\\a"

theorem items_command :
    Path.items command = ["b\\one", "run", "a\\x", "b\\", "", "run", "\\b\\one", "stop", "a\\x",
      "b\\two", "\\a"] := by
  decide +kernel

end Mixed

/-- Modules take turns in the list and stand in one piece in the registry. -/
theorem mixed_items_are_grouped :
    (empty.addCommand Mixed.command).methods.toList = ["run", "stop"] ∧
    (empty.addCommand Mixed.command).modules.toList =
      [("b", ["b\\one", "\\b\\one", "b\\two"]), ("a", ["a\\x"])] ∧
    empty.addCommand "b\\one,run,a\\x,run,\\b\\one,stop,a\\x,b\\two" =
      empty.addCommand Mixed.command ∧
    "b\\two" ∈ (empty.addCommand Mixed.command).modules.listed "b" := by
  obtain ⟨hmethods, hmodules, -, hunread, hcovers⟩ := items_are_grouped Mixed.command
  rw [Mixed.items_command] at hmethods hmodules hunread hcovers
  refine ⟨hmethods.trans (by decide +kernel), hmodules.trans (by decide +kernel),
    hunread _ (by decide +kernel), ?_⟩
  have hread : Token.ofString? "b\\two" = some (.library "b" "b\\two") := by decide +kernel
  have hcovered := hcovers "b\\two" (by simp)
  rw [Covers, hread] at hcovered
  exact hcovered

end Directives

end Switchboard
