import Mathlib.Algebra.BigOperators.Group.List.Basic
import Mathlib.Algebra.GroupWithZero.Nat
import Switchboard.CommandLine
import Switchboard.Proofs.Segments

/-!
The lines of raw results. JSON is written without control characters (`Json.visible_compact`),
so a value that is no string stands on one line. Names and strings are written as they are. The
lines of the rendering are therefore those of its entries, one after the other
(`CommandLine.lines_render`), and there is one line for each entry just if neither a name nor a
string holds a newline (`CommandLine.one_line_each_iff`). Where a string does, what follows it
may look like the line of another method (`CommandLine.raw_lines_not_always_one_each`).
-/

namespace Switchboard

/-! ## Visible text -/

/-- Text without control characters, so without newlines. -/
def Visible (cs : List Char) : Prop := ∀ c ∈ cs, 0x20 ≤ c.toNat

namespace Visible

@[simp] theorem nil : Visible [] := fun _ h => (nomatch h)

@[simp] theorem cons_iff {c : Char} {cs : List Char} :
    Visible (c :: cs) ↔ 0x20 ≤ c.toNat ∧ Visible cs := List.forall_mem_cons

@[simp] theorem append_iff {cs ds : List Char} : Visible (cs ++ ds) ↔ Visible cs ∧ Visible ds :=
  List.forall_mem_append

theorem of_subset {cs ds : List Char} (hds : Visible ds) (h : cs ⊆ ds) : Visible cs :=
  fun c hc => hds c (h hc)

theorem of_digits {cs : List Char} (h : ∀ c ∈ cs, c.isDigit = true) : Visible cs := by
  intro c hc
  have hlow : '0'.toNat ≤ c.toNat := (Char.isDigit_iff_toNat.mp (h c hc)).1
  exact Nat.le_trans (by decide) hlow

theorem newline_not_mem {cs : List Char} (h : Visible cs) : '\n' ∉ cs :=
  fun hmem => absurd (h '\n' hmem) (by decide)

theorem intercalate {sep : List Char} (hsep : Visible sep) {parts : List (List Char)}
    (h : ∀ p ∈ parts, Visible p) : Visible (sep.intercalate parts) := by
  induction parts with
  | nil => simp
  | cons p parts ih =>
    obtain ⟨hp, hparts⟩ := List.forall_mem_cons.mp h
    cases parts with
    | nil => simpa using hp
    | cons q qs =>
      rw [List.intercalate_cons_cons, append_iff, append_iff]
      exact ⟨⟨hp, hsep⟩, ih hparts⟩

end Visible

/-! ## Numbers -/

namespace Decimal

theorem visible_digitChars (n : Nat) : Visible (digitChars n) :=
  .of_digits fun _ hc => Nat.isDigit_of_mem_toDigits (by decide) (by decide) hc

theorem visible_stripZeros {ds : List Char} (h : Visible ds) : Visible (stripZeros ds) := by
  refine h.of_subset fun c hc => ?_
  rw [stripZeros, List.mem_reverse] at hc
  exact List.mem_reverse.mp ((List.dropWhile_sublist _).subset hc)

theorem Interval.visible_search {i : Interval} {place : Int} {n fuel : Nat} {d : Digits}
    (h : i.search place n fuel = some d) : Visible d.digits := by
  induction fuel generalizing n with
  | zero => cases h
  | succ fuel ih =>
    rw [search] at h
    dsimp only at h
    split at h
    · cases h
      exact visible_stripZeros (visible_digitChars _)
    · exact ih h

theorem visible_shortest (bits : Nat) : Visible (shortest bits).digits := by
  unfold shortest
  dsimp only
  cases h : (Binary.ofBits bits).interval.search (Binary.ofBits bits).interval.place 1 17 with
  | none => simp
  | some d => exact Interval.visible_search h

namespace Digits

theorem visible_zeros (n : Nat) : Visible (zeros n) := by
  intro c hc
  rw [List.eq_of_mem_replicate hc]
  decide

theorem visible_positional {d : Digits} (h : Visible d.digits) : Visible d.positional := by
  unfold positional
  split
  · simp [h, visible_zeros]
  · dsimp only
    split
    · simp [h, visible_zeros]
    · have htake : Visible (d.digits.take d.point.toNat) := h.of_subset (List.take_subset _ _)
      have hdrop : Visible (d.digits.drop d.point.toNat) := h.of_subset (List.drop_subset _ _)
      simp [htake, hdrop]

theorem visible_exponential {d : Digits} (h : Visible d.digits) : Visible d.exponential := by
  have hsign : 0x20 ≤ (if d.point - 1 < 0 then '-' else '+').toNat := by
    split <;> decide
  have hexponent : Visible ('e' :: (if d.point - 1 < 0 then '-' else '+') ::
      digitChars (d.point - 1).natAbs) :=
    Visible.cons_iff.mpr ⟨by decide, Visible.cons_iff.mpr ⟨hsign, visible_digitChars _⟩⟩
  unfold exponential
  refine Visible.append_iff.mpr ⟨?_, hexponent⟩
  split
  · next c c' cs hdigits =>
    obtain ⟨hc, hrest⟩ := Visible.cons_iff.mp (hdigits ▸ h)
    exact Visible.cons_iff.mpr ⟨hc, Visible.cons_iff.mpr ⟨by decide, hrest⟩⟩
  · exact h

theorem visible_layout (f : FloatLayout) {d : Digits} (h : Visible d.digits) :
    Visible (d.layout f) := by
  unfold layout
  split
  · exact visible_positional h
  · exact visible_exponential h

end Digits

end Decimal

theorem visible_floatText (x : Float) : Visible (floatText x) := by
  have hmagnitude : ∀ magnitude : Nat, Visible (if magnitude = 0 then ['0', '.', '0']
      else (Decimal.shortest magnitude).layout .json) := by
    intro magnitude
    split
    · simp
    · exact Decimal.Digits.visible_layout _ (Decimal.visible_shortest magnitude)
  unfold floatText
  dsimp only
  split
  · exact hmagnitude _
  · exact Visible.cons_iff.mpr ⟨by decide, hmagnitude _⟩

theorem Number.visible_text (n : Number) : Visible n.text.toList := by
  cases n with
  | int n =>
    rw [text, Int.toString_eq_repr]
    cases n with
    | ofNat m =>
      rw [Int.repr, Nat.toList_repr]
      exact Decimal.visible_digitChars m
    | negSucc m =>
      rw [Int.repr, String.toList_append, Nat.toList_repr, Visible.append_iff]
      exact ⟨by simp, Decimal.visible_digitChars _⟩
  | float x =>
    rw [text, String.toList_ofList]
    exact visible_floatText x

/-! ## Values -/

namespace Json

theorem visible_digitChar {n : Nat} (h : n < 16) : 0x20 ≤ (Nat.digitChar n).toNat := by
  have hall : ∀ n : Fin 16, 0x20 ≤ (Nat.digitChar n).toNat := by decide
  exact hall ⟨n, h⟩

/-- Each control character is written as something else. -/
theorem visible_escape (c : Char) : Visible (escape c) := by
  unfold escape
  iterate 7
    split
    · simp
  split
  · next hcontrol =>
    have hhigh : c.toNat / 16 < 16 := by omega
    have hlow : c.toNat % 16 < 16 := by omega
    simp [visible_digitChar hhigh, visible_digitChar hlow]
  · next hcontrol => simpa using hcontrol

theorem visible_quoted (s : String) : Visible (quoted s).toList := by
  have hinside : Visible (s.toList.flatMap escape) := by
    intro c hc
    obtain ⟨x, -, hx⟩ := List.mem_flatMap.mp hc
    exact visible_escape x c hx
  rw [quoted, String.toList_ofList, List.cons_append, Visible.cons_iff, Visible.append_iff]
  exact ⟨by decide, hinside, by simp⟩

theorem visible_joined {texts : List String} (h : ∀ t ∈ texts, Visible t.toList) :
    Visible (",".intercalate texts).toList := by
  rw [String.toList_intercalate]
  refine Visible.intercalate (by simp) fun p hp => ?_
  obtain ⟨t, ht, rfl⟩ := List.mem_map.mp hp
  exact h t ht

mutual

theorem visible_compact (v : Json) : Visible v.compact.toList := by
  cases v with
  | null => simp [compact]
  | bool b => cases b <;> simp [compact]
  | num n => exact n.visible_text
  | str s => exact visible_quoted s
  | arr items =>
    simp only [compact, String.toList_append, Visible.append_iff]
    exact ⟨⟨by simp, visible_joined (visible_compactItems items)⟩, by simp⟩
  | obj fields =>
    simp only [compact, String.toList_append, Visible.append_iff]
    exact ⟨⟨by simp, visible_joined (visible_compactFields fields)⟩, by simp⟩

theorem visible_compactItems (items : List Json) :
    ∀ t ∈ compactItems items, Visible t.toList := by
  cases items with
  | nil => exact fun _ h => nomatch h
  | cons v vs => exact List.forall_mem_cons.mpr ⟨visible_compact v, visible_compactItems vs⟩

theorem visible_compactFields (fields : List (String × Json)) :
    ∀ t ∈ compactFields fields, Visible t.toList := by
  cases fields with
  | nil => exact fun _ h => nomatch h
  | cons f fs =>
    obtain ⟨k, v⟩ := f
    refine List.forall_mem_cons.mpr ⟨?_, visible_compactFields fs⟩
    simp only [String.toList_append, Visible.append_iff]
    exact ⟨⟨visible_quoted k, by simp⟩, visible_compact v⟩

end

end Json

/-! ## Lines -/

namespace Text

theorem length_pieces (mark : Char) (cs : List Char) :
    (pieces mark cs).length = 1 + cs.count mark := by
  induction cs with
  | nil => rfl
  | cons c cs ih =>
    by_cases h : c = mark
    · simp [pieces, h, ih, Nat.add_comm]
    · simp [pieces, h, ih]

/-- Each piece behind the next, and a mark behind each. -/
theorem flatMap_pieces (mark : Char) (cs : List Char) :
    (pieces mark cs).flatMap (· ++ [mark]) = cs ++ [mark] := by
  induction cs with
  | nil => rfl
  | cons c cs ih =>
    by_cases h : c = mark
    · rw [pieces, if_pos h, List.flatMap_cons, ih, h]
      rfl
    · rw [pieces, if_neg h, List.cons_append, ← ih]
      cases hp : pieces mark cs with
      | nil => exact absurd hp (pieces_ne_nil mark cs)
      | cons p ps => rfl

end Text

namespace CommandLine

open Text

/-- The lines of a text, each of which a newline ends. -/
def lines (text : String) : List String :=
  ((pieces '\n' text.toList).dropLast).map String.ofList

/-- An entry as raw results show it. -/
def shown (entry : String × Json) : String := entry.1 ++ ": " ++ plainText entry.2

/-- The lines that an entry takes. -/
def entryLines (entry : String × Json) : List String :=
  (pieces '\n' (shown entry).toList).map String.ofList

/-- An entry with no newline in its name, nor in its value if that is a string. -/
def Unbroken (entry : String × Json) : Prop :=
  '\n' ∉ entry.1.toList ∧ ∀ s, entry.2 = .str s → '\n' ∉ s.toList

theorem newline_not_mem_plainText {v : Json} :
    '\n' ∉ (plainText v).toList ↔ ∀ s, v = .str s → '\n' ∉ s.toList := by
  unfold plainText
  split
  · next s => simp
  · next hv => exact iff_of_true v.visible_compact.newline_not_mem fun s hs => absurd hs (hv s)

theorem newline_not_mem_shown {entry : String × Json} :
    '\n' ∉ (shown entry).toList ↔ Unbroken entry := by
  rw [shown, Unbroken, ← newline_not_mem_plainText]
  simp

theorem length_entryLines (entry : String × Json) :
    (entryLines entry).length = 1 + (shown entry).toList.count '\n' := by
  rw [entryLines, List.length_map, length_pieces]

theorem entryLines_of_unbroken {entry : String × Json} (h : Unbroken entry) :
    entryLines entry = [shown entry] := by
  rw [entryLines, pieces_of_not_mem (newline_not_mem_shown.mpr h), List.map_singleton,
    String.ofList_toList]

/-- Nothing stands behind the newline of the last entry. -/
theorem pieces_rendered (entries : List (String × Json)) :
    pieces '\n' (String.join (entries.map line)).toList =
      entries.flatMap (fun e => pieces '\n' (shown e).toList) ++ [[]] := by
  induction entries with
  | nil => rfl
  | cons e es ih =>
    have hline : (String.join ((e :: es).map line)).toList =
        (shown e).toList ++ '\n' :: (String.join (es.map line)).toList := by
      rw [List.map_cons, String.join_cons, String.toList_append]
      simp [line, shown]
    rw [hline, pieces_append, ih, List.flatMap_cons, List.append_assoc]

/-- The lines of the entries, in order. -/
theorem lines_render (r : Results) : lines (render .raw r) = r.toList.flatMap entryLines := by
  rw [lines, render, pieces_rendered, List.dropLast_concat, List.map_flatMap]
  rfl

theorem join_entryLines (entry : String × Json) :
    String.join ((entryLines entry).map (· ++ "\n")) = line entry := by
  have htext : (shown entry).toList ++ ['\n'] = (line entry).toList := by simp [shown, line]
  rw [← String.toList_inj, String.toList_join, entryLines, List.map_map, List.flatMap_map, ← htext,
    ← flatMap_pieces]
  refine List.flatMap_congr fun p _ => ?_
  simp

/-- Nothing is written but lines. -/
theorem join_lines_render (r : Results) :
    String.join ((lines (render .raw r)).map (· ++ "\n")) = render .raw r := by
  rw [lines_render, render]
  induction r.toList with
  | nil => rfl
  | cons e es ih =>
    rw [List.flatMap_cons, List.map_append, String.join_append, ih, join_entryLines,
      List.map_cons, String.join_cons]

theorem length_lines_render (r : Results) :
    (lines (render .raw r)).length =
      r.size + (r.toList.map fun e => (shown e).toList.count '\n').sum := by
  rw [lines_render, List.length_flatMap]
  simp only [length_entryLines, List.sum_map_add, List.map_const', List.sum_replicate_nat,
    Nat.mul_one]
  rfl

/-- **One line for each entry.** Each newline in a name or a string makes a line more than there
are entries; so there is one line for each entry, with its name and its text, just if there is
none. -/
theorem one_line_each_iff (r : Results) :
    String.join ((lines (render .raw r)).map (· ++ "\n")) = render .raw r ∧
    (lines (render .raw r)).length =
      r.size + (r.toList.map fun e => (shown e).toList.count '\n').sum ∧
    ((lines (render .raw r)).length = r.size ↔ ∀ e ∈ r.toList, Unbroken e) ∧
    (lines (render .raw r) = r.toList.map shown ↔ ∀ e ∈ r.toList, Unbroken e) := by
  have hcount : (lines (render .raw r)).length = r.size ↔ ∀ e ∈ r.toList, Unbroken e := by
    rw [length_lines_render, Nat.add_eq_left, List.sum_eq_zero_iff_forall_eq_nat,
      List.forall_mem_map]
    refine forall₂_congr fun e _ => ?_
    rw [List.count_eq_zero, newline_not_mem_shown]
  refine ⟨join_lines_render r, length_lines_render r, hcount, ?_⟩
  constructor
  · intro h
    rw [← hcount, h, List.length_map]
    rfl
  · intro h
    have heach : ∀ e ∈ r.toList, entryLines e = [shown e] :=
      fun e he => entryLines_of_unbroken (h e he)
    rw [lines_render, List.flatMap_congr heach, ← List.map_eq_flatMap]

/-- What a run prints. -/
def Ending.printed? : Ending → Option String
  | done out _ => some out
  | _ => none

namespace Broken

/-- A text of two lines, of which the second looks like a result. -/
def arguments : List String :=
  ["--cmd", "text\\case,lower", "--format", "raw", "-p",
    "text=\"hi\\nmath\\\\calc\\\\sum: 7\""]

def dispatcher : Dispatcher := ⟨{}, Demo.catalog.toOption.getD .empty⟩

def request : Request :=
  .ofBody (.ofList [("cmd", .str "text\\case,lower"), ("format", .str "raw"),
    ("text", .str "hi\nmath\\calc\\sum: 7")])

end Broken

/-- **A result on two lines.** Only `text\case\lower` has run, but the second line is one that
`math\calc\sum` could have. -/
theorem raw_lines_not_always_one_each :
    (run (fun _ => .error .notFound) Broken.arguments).printed? =
      some "text\\case\\lower: hi\nmath\\calc\\sum: 7\n" ∧
    (Broken.dispatcher.handle Broken.request).results.table.keys = ["text\\case\\lower"] ∧
    ¬ ∀ (d : Dispatcher) (r : Request), (d.handle r).format = .raw →
      lines (render (d.handle r).format (d.handle r).results) =
        (d.handle r).results.toList.map shown := by
  refine ⟨by decide +kernel, by decide +kernel, fun hall => ?_⟩
  have hlines := hall Broken.dispatcher Broken.request (by decide +kernel)
  exact absurd hlines (by decide +kernel)

end CommandLine

end Switchboard
