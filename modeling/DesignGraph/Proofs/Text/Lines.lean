/-! # Lines

What ends a line is a matter of convention: a line feed only, or other characters too, some of them beyond
ASCII. A convention (`Text.LineBreaks`) may choose as it likes as long as a line feed is a break, and a tab
and the printable ASCII characters are none.

A text that is put together from lines, each with a line feed behind it, falls into what every one of them falls
into (`Text.LineBreaks.lines_intercalate`). These are the lines themselves under every convention that finds no
break inside of them (`Text.LineBreaks.lines_intercalate_of_free`). -/

namespace DesignGraph.Text

/-- A tab or a printable ASCII character. -/
def isPlainChar (c : Char) : Bool := c == '\t' || (' ' ≤ c && c ≤ '~')

/-- Which characters end a line. -/
structure LineBreaks where
  ends : Char → Bool
  lineFeed : ends '\n'
  plain : ∀ c, isPlainChar c → ends c = false

namespace LineBreaks

variable {b : LineBreaks} {s t : String} {ls : List String}

/-- Line feeds and nothing else. -/
def lineFeeds : LineBreaks where
  ends c := c == '\n'
  lineFeed := rfl
  plain c hc := by
    rw [beq_eq_false_iff_ne]
    rintro rfl
    revert hc
    decide

/-- The control characters and separators that Unicode takes for ends of lines or of larger parts of a text. -/
def unicode : LineBreaks where
  ends c := (0x0a ≤ c.toNat && c.toNat ≤ 0x0d) || (0x1c ≤ c.toNat && c.toNat ≤ 0x1e) ||
    c.toNat == 0x85 || c.toNat == 0x2028 || c.toNat == 0x2029
  lineFeed := by decide
  plain c hc := by
    have hcode : c = '\t' ∨ 0x20 ≤ c.toNat ∧ c.toNat ≤ 0x7e := by
      simpa [isPlainChar, Char.le_def, UInt32.le_iff_toNat_le] using hc
    rcases hcode with rfl | ⟨hlow, hhigh⟩
    · decide
    · simp
      omega

/-- No character of the text ends a line. -/
def Free (b : LineBreaks) (s : String) : Prop := ∀ c ∈ s.toList, b.ends c = false

instance (b : LineBreaks) (s : String) : Decidable (b.Free s) :=
  decidable_of_iff (s.toList.all fun c => !b.ends c) (by simp [Free])

/-- What stands between the breaks of a text. Behind the last break there may be nothing left. -/
def lines (b : LineBreaks) (text : String) : List String := (text.toList.splitOnP b.ends).map String.ofList

/-! ### Texts without breaks -/

theorem free_of_plain (h : s.toList.all isPlainChar) : b.Free s :=
  fun c hc => b.plain c (List.all_eq_true.1 h c hc)

theorem free_append_iff : b.Free (s ++ t) ↔ b.Free s ∧ b.Free t := by
  simp only [Free, String.toList_append, List.forall_mem_append]

/-! ### Texts made of lines -/

/-- The text that consists of these lines, each with a line feed behind it. -/
theorem toList_intercalate_append (h : ls ≠ []) : ("\n".intercalate ls ++ "\n").toList =
    ls.flatMap fun line => line.toList ++ ['\n'] := by
  have hfeed : "\n".toList = ['\n'] := rfl
  obtain ⟨line, rest, rfl⟩ := List.exists_cons_of_ne_nil h
  rw [String.toList_append, String.toList_intercalate, hfeed]
  induction rest generalizing line with
  | nil => simp [List.intercalate]
  | cons next rest ih =>
    rw [List.flatMap_cons, ← ih next (List.cons_ne_nil _ _)]
    simp [List.intercalate]

/-- **Put together and taken apart**: each line falls into what stands between its own breaks, and behind all of
them there is nothing. -/
theorem lines_intercalate (h : ls ≠ []) :
    b.lines ("\n".intercalate ls ++ "\n") = ls.flatMap b.lines ++ [""] := by
  have hsplit : ∀ ls : List String, (ls.flatMap fun line => line.toList ++ ['\n']).splitOnP b.ends =
      (ls.flatMap fun line => line.toList.splitOnP b.ends) ++ [[]] := by
    intro ls
    induction ls with
    | nil => simp
    | cons line ls ih =>
      rw [List.flatMap_cons, List.append_assoc, List.singleton_append,
        List.splitOnP_append_cons _ _ b.lineFeed, ih, List.flatMap_cons, List.append_assoc]
  rw [lines, toList_intercalate_append h, hsplit ls, List.map_append, List.map_flatMap]
  rfl

theorem lines_of_free (h : b.Free s) : b.lines s = [s] := by
  rw [lines, List.splitOnP_eq_singleton h, List.map_singleton, String.ofList_toList]

/-- Lines without breaks are found again. -/
theorem lines_intercalate_of_free (h : ls ≠ []) (hfree : ∀ line ∈ ls, b.Free line) :
    b.lines ("\n".intercalate ls ++ "\n") = ls ++ [""] := by
  have hpieces : ls.flatMap b.lines = ls := by
    rw [List.flatMap_def, List.map_congr_left fun line hline => lines_of_free (hfree line hline),
      ← List.flatMap_def, List.flatMap_singleton']
  rw [lines_intercalate h, hpieces]

-- what is a line depends on the convention
example : lineFeeds.lines "a\u2028b\n" = ["a\u2028b", ""] ∧ unicode.lines "a\u2028b\n" = ["a", "b", ""] := by
  decide

/-- The only breaks in such a text are its line feeds. -/
theorem eq_lineFeed_of_mem (h : ls ≠ []) (hfree : ∀ line ∈ ls, b.Free line) :
    ∀ c ∈ ("\n".intercalate ls ++ "\n").toList, b.ends c → c = '\n' := by
  intro c hc hends
  rw [toList_intercalate_append h] at hc
  obtain ⟨line, hline, hc⟩ := List.mem_flatMap.1 hc
  rcases List.mem_append.1 hc with hc | hc
  · rw [hfree line hline c hc] at hends
    cases hends
  · exact List.mem_singleton.1 hc

end LineBreaks

end DesignGraph.Text
