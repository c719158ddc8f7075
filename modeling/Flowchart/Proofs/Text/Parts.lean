import Flowchart.Text.Blank
import Mathlib

/-!
# The parts of a text

A text is cut at a separator of one character.  A part has no separator in it,
no blanks at its ends and at least one character, and every such text is its own
only part.
-/

namespace Flowchart.Text

/-! ## Cutting -/

theorem splitOn_cons (separator c : Char) (cs : List Char) :
    splitOn [separator] 0 (c :: cs) =
      if c = separator then [] :: splitOn [separator] 0 cs
      else consHead c (splitOn [separator] 0 cs) := by
  by_cases h : c = separator
  · subst h
    simp [splitOn]
  · simp [splitOn, h, Ne.symm h]

/-- Cutting at one character is what the library's function does. -/
theorem splitOn_singleton (separator : Char) (cs : List Char) :
    splitOn [separator] 0 cs = cs.splitOn separator := by
  induction cs with
  | nil => rfl
  | cons c cs ih =>
      rw [splitOn_cons, ih, List.splitOn_cons_eq_if_modifyHead]
      by_cases h : c = separator
      · rw [if_pos h, if_pos (beq_iff_eq.mpr h)]
      · rw [if_neg h, if_neg (mt beq_iff_eq.mp h)]
        cases hpieces : cs.splitOn separator with
        | nil => exact absurd hpieces (List.splitOn_ne_nil _ _)
        | cons piece pieces => rfl

theorem splitOn_of_notMem
    {separator : Char} {cs : List Char} (h : separator ∉ cs) :
    splitOn [separator] 0 cs = [cs] := by
  induction cs with
  | nil => rfl
  | cons c cs ih =>
      rw [List.mem_cons, not_or] at h
      rw [splitOn_cons, if_neg (Ne.symm h.1), ih h.2, consHead]

theorem notMem_of_mem_splitOn
    {separator : Char} {cs piece : List Char}
    (h : piece ∈ splitOn [separator] 0 cs) : separator ∉ piece := by
  induction cs generalizing piece with
  | nil =>
      obtain rfl : piece = [] := List.mem_singleton.mp h
      exact List.not_mem_nil
  | cons c cs ih =>
      rw [splitOn_cons] at h
      by_cases hc : c = separator
      · rw [if_pos hc] at h
        rcases List.mem_cons.mp h with rfl | hlater
        · exact List.not_mem_nil
        · exact ih hlater
      · rw [if_neg hc] at h
        cases hpieces : splitOn [separator] 0 cs with
        | nil =>
            rw [hpieces] at h
            obtain rfl : piece = [c] := List.mem_singleton.mp h
            simpa using Ne.symm hc
        | cons first pieces =>
            rw [hpieces] at h ih
            rcases List.mem_cons.mp h with rfl | hlater
            · rw [List.mem_cons, not_or]
              exact ⟨Ne.symm hc, ih List.mem_cons_self⟩
            · exact ih (List.mem_cons_of_mem _ hlater)

/-! ## Trimming -/

theorem trimEnd_eq_rdropWhile (cs : List Char) :
    trimEnd cs = cs.rdropWhile isBlank := rfl

theorem toList_trim (text : String) :
    (trim text).toList = trimEnd (trimStart text.toList) := by
  rw [trim, String.toList_ofList]

theorem mem_of_mem_trim {text : String} {c : Char}
    (h : c ∈ (trim text).toList) : c ∈ text.toList := by
  rw [toList_trim, trimEnd_eq_rdropWhile] at h
  have hend := List.rdropWhile_prefix isBlank (trimStart text.toList)
  exact (List.dropWhile_sublist isBlank).subset (hend.subset h)

theorem trimStart_trimEnd_trimStart (cs : List Char) :
    trimStart (trimEnd (trimStart cs)) = trimEnd (trimStart cs) := by
  cases htrimmed : trimEnd (trimStart cs) with
  | nil => rfl
  | cons c rest =>
      obtain ⟨blanks, hblanks⟩ := List.rdropWhile_prefix isBlank (trimStart cs)
      have hfirst : trimStart (trimStart cs) = trimStart cs :=
        List.dropWhile_idempotent isBlank cs
      rw [← hblanks, ← trimEnd_eq_rdropWhile, htrimmed] at hfirst
      have hblank := List.dropWhile_eq_self_iff.mp hfirst (by simp)
      exact List.dropWhile_eq_self_iff.mpr fun _ => hblank

theorem trim_trim (text : String) : trim (trim text) = trim text := by
  rw [trim, toList_trim, trimStart_trimEnd_trimStart, trimEnd_eq_rdropWhile,
    trimEnd_eq_rdropWhile, List.rdropWhile_idempotent]
  rfl

/-! ## Parts -/

/-- A text that can be a part: there is something in it, but no separator and no
blanks at its ends. -/
structure IsPart (separator : Char) (text : String) : Prop where
  nonempty : text ≠ ""
  separator_notMem : separator ∉ text.toList
  trim_eq : trim text = text

section Parts

variable {separator : String} {c : Char}

theorem isPart_of_mem_parts
    (hseparator : separator.toList = [c]) {text part : String}
    (h : part ∈ parts separator text) : IsPart c part := by
  obtain ⟨hpiece, hne⟩ := List.mem_filter.mp h
  obtain ⟨piece, hcut, rfl⟩ := List.mem_map.mp hpiece
  refine ⟨by simpa using hne, fun hmem => ?_, trim_trim _⟩
  have hmem' := mem_of_mem_trim hmem
  rw [String.toList_ofList] at hmem'
  rw [hseparator] at hcut
  exact notMem_of_mem_splitOn hcut hmem'

theorem parts_of_isPart
    (hseparator : separator.toList = [c]) {text : String} (h : IsPart c text) :
    parts separator text = [text] := by
  have hne : text.isEmpty = false := by simpa using h.nonempty
  rw [parts, hseparator, splitOn_of_notMem h.separator_notMem]
  simp [h.trim_eq, hne]

end Parts

end Flowchart.Text
