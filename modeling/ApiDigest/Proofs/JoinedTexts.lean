/-
  Texts that are joined from parts.

  A joined text is cut where the separator begins.  If no part has the character that the
  separator begins with, these are just the places where parts were joined.

  * `Text.split_intercalate`: parts that were joined come back when the text is cut at the
    separators.
-/
import Mathlib.Tactic.Common

namespace ApiDigest.Text

open String.Slice.Pattern

section
variable {sep before part after : String} {mark : Char} {rest : List Char} {s : String.Slice}
  {start stop : s.Pos}

/-- No separator begins inside a part that lacks its first character. -/
theorem not_matchesAt (hsep : sep.toList = mark :: rest) (hpart : mark ∉ part.toList)
    (hstart : start.Splits before (part ++ after)) (hstop : stop.Splits (before ++ part) after)
    (p : s.Pos) (hle : start ≤ p) (hlt : p < stop) : ¬Model.MatchesAt sep p := by
  rw [Model.ForwardStringSearcher.matchesAt_iff_splits]
  rintro ⟨left, right, hp⟩
  obtain ⟨skipped, hleft, -⟩ := (hstart.le_iff_exists_eq_append hp).1 hle
  obtain ⟨ahead, hahead, hbefore, hright⟩ := (hp.lt_iff_exists_eq_append hstop).1 hlt
  rw [hleft, String.append_assoc, String.append_right_inj] at hbefore
  -- what is left of the part at `p` would begin with the mark
  have hchars := congrArg String.toList hright
  rw [String.toList_append, String.toList_append, hsep] at hchars
  cases hlist : ahead.toList with
  | nil => exact hahead (String.toList_eq_nil_iff.1 hlist)
  | cons c chars =>
    rw [hlist, List.cons_append, List.cons_append, List.cons.injEq] at hchars
    refine hpart ?_
    rw [hbefore, String.toList_append, hlist, hchars.1]
    exact List.mem_append_right _ List.mem_cons_self

theorem copy_subslice (hstart : start.Splits before (part ++ after))
    (hstop : stop.Splits (before ++ part) after) (h : start ≤ stop) :
    (s.subslice start stop h).toSlice.copy = part := by
  obtain ⟨_, hcopy⟩ := String.Slice.copy_slice_eq_iff_splits.2 ⟨before, after, hstart, hstop⟩
  rw [String.Slice.toSlice_subslice, hcopy]

variable [Model.StrictPatternModel sep]

/-- The search goes on behind the first part and the separator after it. -/
theorem split_of_splits (hsep : sep.toList = mark :: rest) :
    ∀ (part : String) (parts : List String) {before : String} {start : s.Pos},
      (∀ p ∈ part :: parts, mark ∉ p.toList) →
      start.Splits before (sep.intercalate (part :: parts)) →
      (Model.split sep start start (String.Slice.Pos.le_refl _)).map
        (fun piece => piece.toSlice.copy) = part :: parts
  | part, [], before, start, hparts, hstart => by
    have hstart : start.Splits before (part ++ "") := by simpa using hstart
    have hend : s.endPos.Splits (before ++ part) "" := by
      rw [String.Slice.splits_endPos_iff]
      exact ⟨by simpa using hstart.eq_append.symm, rfl⟩
    have hle : start ≤ s.endPos := String.Slice.Pos.le_endPos _
    rw [Model.split_eq_of_not_matchesAt s.endPos hle
      (not_matchesAt hsep (hparts part List.mem_cons_self) hstart hend), Model.split_endPos,
      List.map_singleton, copy_subslice hstart hend]
  | part, next :: parts, before, start, hparts, hstart => by
    have hstart : start.Splits before (part ++ (sep ++ sep.intercalate (next :: parts))) := by
      simpa [String.intercalate_cons_cons, String.append_assoc] using hstart
    have hstop := hstart.splits_rotateRight
    have hnext := hstop.splits_rotateRight
    have hle := (hstart.le_iff_exists_eq_append hstop).2 ⟨part, rfl, rfl⟩
    rw [Model.split_eq_of_not_matchesAt _ hle
      (not_matchesAt hsep (hparts part List.mem_cons_self) hstart hstop),
      Model.split_eq_of_isLongestMatchAt
        (Model.ForwardStringSearcher.isLongestMatchAt_iff_splits.2 ⟨_, _, hstop, hnext⟩),
      List.map_cons, copy_subslice hstart hstop,
      split_of_splits hsep next parts (fun p hp => hparts p (List.mem_cons_of_mem part hp)) hnext]

end

/-- **Joined parts come back** when the text is cut at the separators, if no part has the
    first character of the separator. -/
theorem split_intercalate {sep : String} {mark : Char} {rest : List Char} {parts : List String}
    (hsep : sep.toList = mark :: rest) (hne : parts ≠ [])
    (hparts : ∀ part ∈ parts, mark ∉ part.toList) :
    ((sep.intercalate parts).split sep).toList.map String.Slice.copy = parts := by
  have hempty : sep ≠ "" := by
    rintro rfl
    cases hsep
  have := Model.ForwardStringSearcher.strictPatternModel hempty
  have := Model.ForwardStringSearcher.lawfulToForwardSearcherModel hempty
  cases parts with
  | nil => exact absurd rfl hne
  | cons part parts =>
    have hstart : (sep.intercalate (part :: parts)).toSlice.startPos.Splits ""
        (sep.intercalate (part :: parts)) := by simp
    rw [String.split_eq_split_toSlice, String.Slice.toList_split_eq_splitToSubslice,
      toList_splitToSubslice_eq_modelSplit, List.map_map]
    exact split_of_splits hsep part parts hparts hstart

end ApiDigest.Text
