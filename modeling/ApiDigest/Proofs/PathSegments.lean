/-
  What the identifier of an operation has from the segments of its path.

  An inferred identifier begins with a word for the method or for an action and goes on
  with the resource, and after that it has the versions that follow the resource in the
  path.  It has nothing from empty segments and parameters, wherever they stand, and
  nothing from versions before the resource.

  * `pathOf` joins segments to a path, and `exists_segments` says that every path is made so;
  * `IsResource` says which segment of a path is its resource, and `exists_resource` that
    there is one wherever a segment can name something;
  * `infer_of_resource`: the identifier is `stem`, which has the resource, followed by
    `versionSuffix`, which has the versions after it;
  * `infer_of_inserted`: what segments that are inserted add to the identifier.
-/
import ApiDigest.OperationId
import Mathlib.Data.List.Basic
import Mathlib.Data.List.TakeWhile

namespace ApiDigest

/-! ## Pieces of a text -/

namespace Text

variable {isCut : Char → Bool}

theorem pieces_eq_splitOnP (isCut : Char → Bool) (text : List Char) :
    pieces isCut text = text.splitOnP isCut := by
  induction text with
  | nil => rfl
  | cons c rest ih =>
    rw [pieces, ih, List.splitOnP_cons_eq_if_modifyHead]
    cases hrest : rest.splitOnP isCut with
    | nil => exact absurd hrest (List.splitOnP_ne_nil _ _)
    | cons piece others => rfl

/-- No piece has a character at which the text is cut. -/
theorem isCut_of_mem_pieces : ∀ {text piece : List Char}, piece ∈ pieces isCut text →
    ∀ c ∈ piece, isCut c = false
  | [], piece, h => by
    obtain rfl := List.mem_singleton.1 h
    exact fun c hc => absurd hc List.not_mem_nil
  | c :: rest, piece, h => by
    have hrest : ∀ p ∈ pieces isCut rest, ∀ d ∈ p, isCut d = false :=
      fun p hp => isCut_of_mem_pieces hp
    rw [pieces] at h
    split_ifs at h with hc
    · rcases List.mem_cons.1 h with rfl | h
      · exact fun d hd => absurd hd List.not_mem_nil
      · exact hrest piece h
    · generalize pieces isCut rest = others at h hrest
      cases others with
      | nil =>
        obtain rfl := List.mem_singleton.1 h
        simpa using hc
      | cons first others =>
        obtain ⟨hfirst, hothers⟩ := List.forall_mem_cons.1 hrest
        rcases List.mem_cons.1 h with rfl | h
        · exact List.forall_mem_cons.2 ⟨Bool.eq_false_iff.2 hc, hfirst⟩
        · exact hothers piece h

end Text

namespace OperationId

/-! ## Paths and their segments -/

/-- The path with the given segments. -/
def pathOf (segments : List String) : String := "/".intercalate segments

/-- Texts are the segments of a path just if none of them has a slash. -/
def AreSegments (segments : List String) : Prop := ∀ s ∈ segments, '/' ∉ s.toList

instance (segments : List String) : Decidable (AreSegments segments) :=
  inferInstanceAs (Decidable (∀ s ∈ segments, '/' ∉ s.toList))

/-- Whether a segment is empty or a parameter. -/
def isSilent (s : String) : Bool := s.toList.isEmpty || Naming.isParameter s

/-- Whether a segment can name a resource: it is neither empty nor a parameter nor a
    version. -/
def isName (s : String) : Bool := !isSilent s && !Naming.isVersion s

/-- The segments that can name a resource. -/
def names (segments : List String) : List String := segments.filter isName

/-- The segment between some segments is the resource of their path: the last one that can
    be, or the one before it if the last one stands for an action. -/
structure IsResource (before : List String) (s : String) (after : List String) : Prop where
  isName : isName s = true
  last : (names after = [] ∧ (action? s.toList = none ∨ names before = [])) ∨
    ∃ last, names after = [last] ∧ (action? last.toList).isSome = true

/-- The first part of an identifier: the word for the action behind the resource, or else
    the verb of the method, and the resource. -/
def stem (m : Method) (resource : String) (after : List String) : String :=
  ((names after).head?.bind fun s => action? s.toList).getD m.verb ++
    Naming.pascalSegment resource

/-- A version with a capital letter. -/
def capitalVersion (s : String) : String := "V" ++ String.ofList s.toList.tail

/-- The versions among some segments, each with a capital letter. -/
def versionSuffix (segments : List String) : String :=
  String.join ((segments.filter Naming.isVersion).map capitalVersion)

/-- The second list has empty segments and parameters besides those of the first. -/
inductive WithSilent : List String → List String → Prop
  | nil : WithSilent [] []
  | keep (s : String) {l m : List String} : WithSilent l m → WithSilent (s :: l) (s :: m)
  | empty {l m : List String} : WithSilent l m → WithSilent l ("" :: m)
  | parameter (inner : String) {l m : List String} :
      WithSilent l m → WithSilent l (("\x7b" ++ inner ++ "\x7d") :: m)

variable {segments others before between after : List String} {s path resource digits : String}
  {m : Method}

/-- **Every path has segments.** -/
theorem exists_segments (path : String) :
    ∃ segments, AreSegments segments ∧ pathOf segments = path := by
  refine ⟨(Text.pieces (· = '/') path.toList).map String.ofList, ?_, ?_⟩
  · intro s hs
    obtain ⟨chars, hchars, rfl⟩ := List.mem_map.1 hs
    rw [String.toList_ofList]
    exact fun hslash => absurd (Text.isCut_of_mem_pieces hchars _ hslash) (by simp)
  · apply String.toList_injective
    rw [pathOf, String.toList_intercalate, List.map_map, Text.pieces_eq_splitOnP]
    simp only [Function.comp_def, String.toList_ofList, List.map_id']
    exact List.intercalate_splitOn '/'

/-- **The segments of a joined path** are those that it was joined from, without the silent
    ones. -/
theorem segments_pathOf (h : AreSegments segments) :
    OperationId.segments (pathOf segments).toList =
      (segments.filter fun s => !isSilent s).map String.toList := by
  rcases eq_or_ne segments [] with rfl | hne
  · rfl
  · have hpieces : Text.pieces (· = '/') (pathOf segments).toList =
        segments.map String.toList := by
      rw [Text.pieces_eq_splitOnP, pathOf, String.toList_intercalate]
      refine List.splitOn_intercalate '/' ?_ (by simpa using hne)
      intro chars hchars
      obtain ⟨s, hs, rfl⟩ := List.mem_map.1 hchars
      exact h s hs
    rw [OperationId.segments, hpieces, List.filter_map]
    refine congrArg _ (List.filter_congr fun s _ => ?_)
    simp [isSilent, Naming.isParameter]

theorem infer_pathOf (m : Method) (h : AreSegments segments) : infer m (pathOf segments) =
    ofReversed m ((segments.filter fun s => !isSilent s).map String.toList).reverse := by
  rw [infer, segments_pathOf h]

/-- **Silent segments do not show in an identifier.** -/
theorem infer_congr (m : Method) (hsegments : AreSegments segments) (hothers : AreSegments others)
    (h : (segments.filter fun s => !isSilent s) = others.filter fun s => !isSilent s) :
    infer m (pathOf segments) = infer m (pathOf others) := by
  rw [infer_pathOf m hsegments, infer_pathOf m hothers, h]

theorem isSilent_parameter (inner : String) : isSilent ("\x7b" ++ inner ++ "\x7d") = true := by
  have hlast : (("\x7b" ++ inner ++ "\x7d").toList).getLast? = some '}' := by
    rw [String.toList_append]
    exact List.getLast?_concat
  rw [isSilent, Naming.isParameter, Naming.isParameterChars, hlast]
  simp

namespace WithSilent

theorem filter_eq (h : WithSilent segments others) :
    (others.filter fun s => !isSilent s) = segments.filter fun s => !isSilent s := by
  induction h with
  | nil => rfl
  | keep s _ ih => rw [List.filter_cons, List.filter_cons, ih]
  | empty _ ih => rw [List.filter_cons_of_neg (by decide), ih]
  | parameter inner _ ih => rw [List.filter_cons_of_neg (by simp [isSilent_parameter]), ih]

theorem subset (h : WithSilent segments others) : segments ⊆ others := by
  induction h with
  | nil => exact List.Subset.refl _
  | keep s _ ih => exact List.cons_subset_cons s ih
  | empty _ ih => exact List.Subset.trans ih (List.subset_cons_self _ _)
  | parameter inner _ ih => exact List.Subset.trans ih (List.subset_cons_self _ _)

end WithSilent

/-! ## Versions -/

theorem isVersionChars_digits {digits : List Char} (hne : digits ≠ [])
    (hdigits : ∀ c ∈ digits, c.isDigit = true) : Naming.isVersionChars ('v' :: digits) = true := by
  rw [Naming.isVersionChars, List.all_eq_true.2 hdigits, Bool.and_true]
  simpa using hne

theorem exists_digits {chars : List Char} (h : Naming.isVersionChars chars = true) :
    ∃ digits, chars = 'v' :: digits ∧ ∀ c ∈ digits, c.isDigit = true := by
  unfold Naming.isVersionChars at h
  split at h
  · rename_i digits
    rw [Bool.and_eq_true, List.all_eq_true] at h
    exact ⟨digits, rfl, h.2⟩
  · cases h

theorem isWordBreak_of_isDigit {c : Char} (h : c.isDigit = true) :
    Naming.isWordBreak c = false := by
  by_contra hbreak
  simp only [Naming.isWordBreak, Bool.not_eq_false, Bool.or_eq_true, decide_eq_true_eq] at hbreak
  rcases hbreak with (rfl | rfl) | rfl <;> exact absurd h (by decide)

/-- **A version in an identifier** is the version with a capital letter. -/
theorem pascalChars_version {digits : List Char} (h : ∀ c ∈ digits, c.isDigit = true) :
    Naming.pascalChars ('v' :: digits) = 'V' :: digits := by
  have hword : ∀ c ∈ 'v' :: digits, Naming.isWordBreak c = false :=
    List.forall_mem_cons.2 ⟨by decide, fun c hc => isWordBreak_of_isDigit (h c hc)⟩
  have hkept : ('v' :: digits).filter Naming.isIdentifierChar = 'v' :: digits :=
    List.filter_eq_self.2 (List.forall_mem_cons.2 ⟨by decide, fun c hc => by
      simp [Naming.isIdentifierChar, Char.isAlphanum, h c hc]⟩)
  have hv : Text.upperCase 'v' = ['V'] := by decide
  rw [Naming.pascalChars, Text.pieces_eq_splitOnP, List.splitOnP_eq_singleton hword,
    List.flatMap_singleton, hkept, Naming.capitalizeChars, hv]
  rfl

theorem toList_capitalVersion (h : Naming.isVersion s = true) :
    (capitalVersion s).toList = Naming.pascalChars s.toList := by
  obtain ⟨digits, hchars, hdigits⟩ := exists_digits h
  rw [hchars, pascalChars_version hdigits, capitalVersion, hchars, List.tail_cons,
    String.toList_append, String.toList_ofList, String.toList_ofList]
  rfl

theorem ofList_versions {versions : List String} (h : ∀ s ∈ versions, Naming.isVersion s = true) :
    String.ofList ((versions.map String.toList).flatMap Naming.pascalChars) =
      String.join (versions.map capitalVersion) := by
  apply String.toList_injective
  rw [String.toList_ofList, String.toList_join, List.flatMap_map, List.flatMap_map]
  exact List.flatMap_congr fun s hs => (toList_capitalVersion (h s hs)).symm

/-! ## The resource of a path -/

section
variable {front versions before after : List (List Char)} {resource last : List Char}
  {action : String}

theorem suffix_reverse (versions : List (List Char)) :
    suffix versions.reverse = String.ofList (versions.flatMap Naming.pascalChars) := by
  rw [suffix, List.reverse_reverse]

/-- The identifier of a path whose last name is the resource. -/
theorem ofReversed_verb (hresource : Naming.isVersionChars resource = false)
    (hversions : ∀ s ∈ versions, Naming.isVersionChars s = true)
    (h : action? resource = none ∨ ∀ s ∈ front, Naming.isVersionChars s = true) :
    ofReversed m (front ++ resource :: versions).reverse =
      m.verb ++ String.ofList (Naming.pascalChars resource) ++
        String.ofList (versions.flatMap Naming.pascalChars) := by
  have hreversed : ∀ s ∈ versions.reverse, Naming.isVersionChars s = true :=
    fun s hs => hversions s (List.mem_reverse.1 hs)
  have hlist : (front ++ resource :: versions).reverse =
      versions.reverse ++ resource :: front.reverse := by simp
  rw [ofReversed, hlist, List.takeWhile_append_of_pos hreversed,
    List.dropWhile_append_of_pos hreversed, List.takeWhile_cons_of_neg (by simp [hresource]),
    List.dropWhile_cons_of_neg (by simp [hresource]), List.append_nil, ← suffix_reverse]
  -- an action needs another name before it
  rcases h with haction | hfront
  · simp only [haction]
  · have hnone : front.reverse.dropWhile Naming.isVersionChars = [] :=
      List.dropWhile_eq_nil_iff.2 fun s hs => hfront s (List.mem_reverse.1 hs)
    simp only [hnone]
    cases action? resource <;> rfl

/-- The identifier of a path whose last name stands for an action. -/
theorem ofReversed_action (hresource : Naming.isVersionChars resource = false)
    (hlast : Naming.isVersionChars last = false) (haction : action? last = some action)
    (hbefore : ∀ s ∈ before, Naming.isVersionChars s = true)
    (hafter : ∀ s ∈ after, Naming.isVersionChars s = true) :
    ofReversed m (front ++ resource :: (before ++ last :: after)).reverse =
      action ++ String.ofList (Naming.pascalChars resource) ++
        String.ofList ((before ++ after).flatMap Naming.pascalChars) := by
  have hbefore' : ∀ s ∈ before.reverse, Naming.isVersionChars s = true :=
    fun s hs => hbefore s (List.mem_reverse.1 hs)
  have hafter' : ∀ s ∈ after.reverse, Naming.isVersionChars s = true :=
    fun s hs => hafter s (List.mem_reverse.1 hs)
  have hlist : (front ++ resource :: (before ++ last :: after)).reverse =
      after.reverse ++ last :: (before.reverse ++ resource :: front.reverse) := by simp
  rw [ofReversed, hlist, List.takeWhile_append_of_pos hafter',
    List.dropWhile_append_of_pos hafter', List.takeWhile_cons_of_neg (by simp [hlast]),
    List.dropWhile_cons_of_neg (by simp [hlast]), List.append_nil]
  simp only [haction]
  rw [List.takeWhile_append_of_pos hbefore', List.dropWhile_append_of_pos hbefore',
    List.takeWhile_cons_of_neg (by simp [hresource]),
    List.dropWhile_cons_of_neg (by simp [hresource]), List.append_nil, ← List.reverse_append,
    suffix_reverse]

end

theorem isVersion_of_names (h : names segments = []) (hs : s ∈ segments)
    (hloud : isSilent s = false) : Naming.isVersion s = true := by
  have hname := List.filter_eq_nil_iff.1 h s hs
  simpa [isName, hloud] using hname

theorem isSilent_of_isVersion (h : Naming.isVersion s = true) : isSilent s = false := by
  obtain ⟨digits, hchars, -⟩ := exists_digits h
  simp [isSilent, Naming.isParameter, Naming.isParameterChars, hchars]

/-- Without names, the segments that are not silent are the versions. -/
theorem filter_loud (h : names segments = []) :
    (segments.filter fun s => !isSilent s) = segments.filter Naming.isVersion := by
  refine List.filter_congr fun s hs => ?_
  cases hversion : Naming.isVersion s with
  | true => rw [isSilent_of_isVersion hversion]; rfl
  | false =>
    by_contra hloud
    rw [Bool.not_eq_false, Bool.not_eq_true'] at hloud
    rw [isVersion_of_names h hs hloud] at hversion
    cases hversion

/-- **The identifier of a path with a resource**: what the resource and the action behind it
    give, and the versions after the resource. -/
theorem infer_of_resource (m : Method) (hsegments : AreSegments (before ++ resource :: after))
    (h : IsResource before resource after) :
    infer m (pathOf (before ++ resource :: after)) =
      stem m resource after ++ versionSuffix after := by
  obtain ⟨hname, hlast⟩ := h
  have hversion : ∀ {s : String}, isName s = true →
      isSilent s = false ∧ Naming.isVersionChars s.toList = false := fun h => by
    simpa [isName, Naming.isVersion] using h
  obtain ⟨hloud, hresource⟩ := hversion hname
  have hversions : ∀ {l : List String}, ∀ chars ∈ (l.filter Naming.isVersion).map String.toList,
      Naming.isVersionChars chars = true := by
    rintro l _ hchars
    obtain ⟨s, hs, rfl⟩ := List.mem_map.1 hchars
    exact (List.mem_filter.1 hs).2
  rw [infer_pathOf m hsegments, List.filter_append, List.filter_cons_of_pos (by simp [hloud]),
    List.map_append, List.map_cons]
  rcases hlast with ⟨hnone, haction⟩ | ⟨last, hlast, haction⟩
  · have hfront : action? resource.toList = none ∨
        ∀ chars ∈ (before.filter fun s => !isSilent s).map String.toList,
          Naming.isVersionChars chars = true := by
      refine haction.imp_right fun hbefore => ?_
      rw [filter_loud hbefore]
      exact hversions
    rw [filter_loud hnone, ofReversed_verb hresource hversions hfront,
      ofList_versions fun s hs => (List.mem_filter.1 hs).2, stem, hnone]
    rfl
  · obtain ⟨action, haction⟩ := Option.isSome_iff_exists.1 haction
    obtain ⟨between, rest, rfl, hbetween, hlastName, hrest⟩ := List.filter_eq_cons_iff.1 hlast
    obtain ⟨hlastLoud, hlastVersion⟩ := hversion hlastName
    have hbetween : names between = [] := List.filter_eq_nil_iff.2 hbetween
    have hsuffix : (between ++ last :: rest).filter Naming.isVersion =
        between.filter Naming.isVersion ++ rest.filter Naming.isVersion := by
      rw [List.filter_append,
        List.filter_cons_of_neg (by simpa [Naming.isVersion] using hlastVersion)]
    rw [List.filter_append, List.filter_cons_of_pos (by simp [hlastLoud]), filter_loud hbetween,
      filter_loud hrest, List.map_append, List.map_cons,
      ofReversed_action hresource hlastVersion haction hversions hversions, ← List.map_append,
      ← hsuffix, ofList_versions fun s hs => (List.mem_filter.1 hs).2, stem, hlast]
    simp [haction, versionSuffix, Naming.pascalSegment]

/-- Of the names among some segments there is a last one. -/
theorem exists_last_name (h : names segments ≠ []) :
    ∃ before s after, segments = before ++ s :: after ∧ isName s = true ∧ names after = [] := by
  induction segments with
  | nil => exact absurd rfl h
  | cons s rest ih =>
    by_cases hrest : names rest = []
    · have hs : isName s = true := by
        by_contra hs
        exact h ((List.filter_cons_of_neg hs).trans hrest)
      exact ⟨[], s, rest, rfl, hs, hrest⟩
    · obtain ⟨before, last, after, hsplit, hlast, hafter⟩ := ih hrest
      exact ⟨s :: before, last, after, by rw [hsplit, List.cons_append], hlast, hafter⟩

/-- **A path with a name has a resource.** -/
theorem exists_resource (h : names segments ≠ []) :
    ∃ before resource after, segments = before ++ resource :: after ∧
      IsResource before resource after := by
  obtain ⟨before, last, after, rfl, hlast, hafter⟩ := exists_last_name h
  by_cases hverb : action? last.toList = none ∨ names before = []
  · exact ⟨before, last, after, rfl, hlast, Or.inl ⟨hafter, hverb⟩⟩
  · -- the last name stands for an action on the name before it
    obtain ⟨haction, hbefore⟩ := not_or.1 hverb
    obtain ⟨front, resource, between, rfl, hresource, hbetween⟩ := exists_last_name hbefore
    refine ⟨front, resource, between ++ last :: after, by simp, hresource,
      Or.inr ⟨last, ?_, Option.isSome_iff_ne_none.2 haction⟩⟩
    rw [names, List.filter_append, List.filter_cons_of_pos hlast]
    exact congrArg₂ (fun l l' => l ++ last :: l') hbetween hafter

/-! ## Segments that are inserted -/

theorem versionSuffix_append (segments others : List String) :
    versionSuffix (segments ++ others) = versionSuffix segments ++ versionSuffix others := by
  apply String.toList_injective
  simp [versionSuffix, String.toList_join]

section
variable {version : String} (hversion : Naming.isVersion version = true)
include hversion

theorem versionSuffix_cons (segments : List String) :
    versionSuffix (version :: segments) = capitalVersion version ++ versionSuffix segments := by
  apply String.toList_injective
  simp [versionSuffix, String.toList_join, List.filter_cons_of_pos hversion]

theorem names_insert (segments others : List String) :
    names (segments ++ version :: others) = names (segments ++ others) := by
  have hname : ¬isName version = true := by simp [isName, hversion]
  rw [names, names, List.filter_append, List.filter_append, List.filter_cons_of_neg hname]

/-- Versions that are inserted do not change which segment is the resource. -/
theorem IsResource.insert_before (h : IsResource (before ++ between) resource after) :
    IsResource (before ++ version :: between) resource after :=
  ⟨h.isName, by rw [names_insert hversion]; exact h.last⟩

theorem IsResource.insert_after (h : IsResource before resource (between ++ after)) :
    IsResource before resource (between ++ version :: after) :=
  ⟨h.isName, by rw [names_insert hversion]; exact h.last⟩

theorem stem_insert (m : Method) (resource : String) (before after : List String) :
    stem m resource (before ++ version :: after) = stem m resource (before ++ after) := by
  rw [stem, stem, names_insert hversion]

end

/-- A segment more, wherever it stands. -/
theorem AreSegments.insert (h : AreSegments segments) (hs : '/' ∉ s.toList)
    (hsubset : ∀ t ∈ others, t = s ∨ t ∈ segments) : AreSegments others := by
  intro t ht
  rcases hsubset t ht with rfl | ht
  · exact hs
  · exact h t ht

/-- **What inserted segments add to an identifier.**  Empty segments and parameters add
    nothing.  If a path has a resource, which it has as soon as a segment can be one, then a
    version before it adds nothing either, and a version after it adds itself with a capital
    letter, between those that stand before and after it. -/
theorem infer_of_inserted (m : Method) :
    (∀ {segments padded : List String}, AreSegments padded → WithSilent segments padded →
      infer m (pathOf padded) = infer m (pathOf segments)) ∧
    (∀ path : String, ∃ segments, AreSegments segments ∧ pathOf segments = path ∧
      (names segments ≠ [] → ∃ before resource after,
        segments = before ++ resource :: after ∧ IsResource before resource after)) ∧
    ∀ {before after : List String} {resource digits : String},
      AreSegments (before ++ resource :: after) → IsResource before resource after →
      digits ≠ "" → (∀ c ∈ digits.toList, c.isDigit = true) →
      (∀ front back, before = front ++ back →
        infer m (pathOf (front ++ ("v" ++ digits) :: back ++ resource :: after)) =
          infer m (pathOf (before ++ resource :: after))) ∧
      ∀ front back, after = front ++ back →
        infer m (pathOf (before ++ resource :: after)) =
            stem m resource after ++ versionSuffix front ++ versionSuffix back ∧
          infer m (pathOf (before ++ resource :: (front ++ ("v" ++ digits) :: back))) =
            stem m resource after ++ versionSuffix front ++ ("V" ++ digits) ++
              versionSuffix back := by
  refine ⟨?_, ?_, ?_⟩
  · intro segments padded hpadded h
    exact infer_congr m hpadded (fun s hs => hpadded s (h.subset hs)) h.filter_eq
  · intro path
    obtain ⟨segments, hsegments, hpath⟩ := exists_segments path
    exact ⟨segments, hsegments, hpath, exists_resource⟩
  · intro before after resource digits hsegments hresource hne hdigits
    have hchars : ("v" ++ digits).toList = 'v' :: digits.toList := String.toList_append
    have hversion : Naming.isVersion ("v" ++ digits) = true := by
      rw [Naming.isVersion, hchars]
      exact isVersionChars_digits (mt String.toList_eq_nil_iff.1 hne) hdigits
    have hslash : '/' ∉ ("v" ++ digits).toList := by
      rw [hchars]
      intro hmem
      rcases List.mem_cons.1 hmem with h | h
      · exact absurd h (by decide)
      · exact absurd (hdigits '/' h) (by decide)
    have hcapital : capitalVersion ("v" ++ digits) = "V" ++ digits := by
      rw [capitalVersion, hchars, List.tail_cons, String.ofList_toList]
    refine ⟨?_, ?_⟩
    · rintro front back rfl
      have hinserted : AreSegments (front ++ ("v" ++ digits) :: back ++ resource :: after) :=
        hsegments.insert hslash fun t ht => by
          simp only [List.mem_append, List.mem_cons] at ht ⊢
          tauto
      rw [infer_of_resource m hinserted (hresource.insert_before hversion),
        infer_of_resource m hsegments hresource]
    · rintro front back rfl
      have hinserted : AreSegments (before ++ resource :: (front ++ ("v" ++ digits) :: back)) :=
        hsegments.insert hslash fun t ht => by
          simp only [List.mem_append, List.mem_cons] at ht ⊢
          tauto
      constructor
      · rw [infer_of_resource m hsegments hresource, versionSuffix_append, String.append_assoc]
      · rw [infer_of_resource m hinserted (hresource.insert_after hversion), stem_insert hversion,
          versionSuffix_append, versionSuffix_cons hversion, hcapital]
        simp only [String.append_assoc]

/-- The segments of a path with an action. -/
def searchPath : List String := ["", "v1", "users", "v2", "search"]

theorem infer_of_inserted_search :
    WithSilent searchPath ["", "v1", "", "users", "{id}", "v2", "search", "{}"] ∧
      IsResource ["", "v1"] "users" ["v2", "search"] ∧
      infer .post (pathOf searchPath) = "searchUsersV2" ∧
      infer .post "/v1//users/{id}/v2/search/{}" = "searchUsersV2" ∧
      infer .post "/v1/v3/users/v2/search" = "searchUsersV2" ∧
      infer .post "/v1/users/v2/v3/search" = "searchUsersV2V3" := by
  obtain ⟨hsilent, -, hversion⟩ := infer_of_inserted .post
  have hwith : WithSilent searchPath ["", "v1", "", "users", "{id}", "v2", "search", "{}"] :=
    .keep _ (.keep _ (.empty (.keep _ (.parameter "id" (.keep _ (.keep _ (.parameter "" .nil)))))))
  have hresource : IsResource ["", "v1"] "users" ["v2", "search"] :=
    ⟨by decide, Or.inr ⟨"search", by decide, by decide⟩⟩
  have hsegments : AreSegments (["", "v1"] ++ "users" :: ["v2", "search"]) := by decide
  have hid : infer .post (pathOf searchPath) = "searchUsersV2" := by decide +kernel
  have hthree : ∀ c ∈ "3".toList, c.isDigit = true := List.all_eq_true.1 (by decide)
  obtain ⟨hbefore, hafter⟩ := hversion hsegments hresource (by simp) hthree
  refine ⟨hwith, hresource, hid, ?_, ?_, ?_⟩
  · exact (hsilent (by decide) hwith).trans hid
  · exact (hbefore ["", "v1"] [] rfl).trans hid
  · exact (hafter ["v2"] ["search"] rfl).2.trans (by decide +kernel)

end OperationId
end ApiDigest
