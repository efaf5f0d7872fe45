/-
  Where a path leads that never goes up.

  Such a path names, one below the other, the directories that it goes through.  Slashes
  that are doubled or stand at the end make no difference, and neither do single dots,
  except for a dot at the very end: what stands before it has to be a directory already.

  * `FilePath.IsPlain` are the paths without a step up and without a dot at the end;
  * `FilePath.LeadsTo` says that a path leads from the root along some names, and
    `FilePath.leadsTo_join` that a plain path behind a working directory does;
  * `FilePath.LeadsTo.steps_trimSlashes` and `FilePath.LeadsTo.steps_join` are the walks to
    what it names and to a file in there.
-/
import ApiDigest.Proofs.PathSegments
import ApiDigest.World.Session
import Mathlib.Data.List.Induction

namespace ApiDigest

/-! ## Pieces -/

namespace Text

variable {isCut : Char → Bool} {c : Char} {text : List Char}

theorem pieces_append_cut (hcut : isCut c = true) (before after : List Char) :
    pieces isCut (before ++ c :: after) = pieces isCut before ++ pieces isCut after := by
  simp only [pieces_eq_splitOnP]
  exact List.splitOnP_append_cons before after hcut

theorem pieces_ne_nil (isCut : Char → Bool) (text : List Char) : pieces isCut text ≠ [] := by
  rw [pieces_eq_splitOnP]
  exact List.splitOnP_ne_nil _ _

/-- Only behind a cut is the last piece empty. -/
theorem getLast?_pieces_ne : ∀ {text : List Char}, text ≠ [] →
    (∀ c ∈ text.getLast?, isCut c = false) → (pieces isCut text).getLast? ≠ some []
  | [], hne, _ => absurd rfl hne
  | [c], _, hlast => by
    have hc : isCut c = false := hlast c rfl
    simp [pieces, hc]
  | c :: next :: rest, _, hlast => by
    have ih := getLast?_pieces_ne (List.cons_ne_nil next rest)
      (by rwa [List.getLast?_cons_cons] at hlast)
    rw [pieces]
    cases hpieces : pieces isCut (next :: rest) with
    | nil => exact absurd hpieces (pieces_ne_nil _ _)
    | cons piece others =>
      rw [hpieces] at ih
      split_ifs
      · rwa [List.getLast?_cons_cons]
      · cases others with
        | nil => simp
        | cons other others => rwa [List.getLast?_cons_cons] at ih ⊢

theorem trimEnd_snoc (isTrimmed : Char → Bool) (text : List Char) (c : Char) :
    trimEnd isTrimmed (text ++ [c]) =
      if isTrimmed c then trimEnd isTrimmed text else text ++ [c] := by
  simp only [trimEnd, List.reverse_append, List.reverse_singleton, List.singleton_append,
    List.dropWhile_cons]
  split_ifs <;> simp

theorem of_mem_getLast?_trimEnd {isTrimmed : Char → Bool}
    (h : c ∈ (trimEnd isTrimmed text).getLast?) : isTrimmed c = false := by
  rw [trimEnd, List.getLast?_reverse] at h
  have hhead := List.head?_dropWhile_not isTrimmed text.reverse
  rwa [h] at hhead

end Text

namespace FilePath

variable {path base name : String} {cwd names : List String} {text : List Char}

/-! ## Parts of a path -/

/-- What stands between the slashes of a path. -/
def parts (text : List Char) : List (List Char) :=
  (Text.pieces (· = '/') text).filter (· ≠ [])

@[simp] theorem parts_nil : parts [] = [] := rfl

theorem parts_append_slash (before after : List Char) :
    parts (before ++ '/' :: after) = parts before ++ parts after := by
  rw [parts, Text.pieces_append_cut (by simp), List.filter_append]
  rfl

theorem pieces_of_notMem (h : '/' ∉ text) : Text.pieces (· = '/') text = [text] := by
  rw [Text.pieces_eq_splitOnP]
  exact List.splitOnP_eq_singleton fun c hc => decide_eq_false fun heq => h (heq ▸ hc)

theorem parts_of_notMem (h : '/' ∉ text) (hne : text ≠ []) : parts text = [text] := by
  simp [parts, pieces_of_notMem h, hne]

theorem parts_trimEnd (text : List Char) : parts (Text.trimEnd (· = '/') text) = parts text := by
  induction text using List.reverseRecOn with
  | nil => rfl
  | append_singleton text c ih =>
    rw [Text.trimEnd_snoc]
    split_ifs with hc
    · obtain rfl : c = '/' := by simpa using hc
      rw [ih, parts_append_slash, parts_nil, List.append_nil]
    · rfl

theorem components_eq (path : String) :
    components path = (parts path.toList).filter (· ≠ ['.']) := by
  rw [components, parts, List.filter_filter]
  congr 1
  funext part
  simp [Bool.and_comm]

theorem Step.ofComponent_eq_stay_iff {part : List Char} :
    ofComponent part = .stay ↔ part = [] ∨ part = ['.'] := by
  rw [ofComponent]
  split_ifs with hstay <;> simp_all

theorem Step.ofComponent_of_name {part : List Char} (hempty : part ≠ []) (hhere : part ≠ ['.'])
    (hup : part ≠ ['.', '.']) : ofComponent part = .into (String.ofList part) := by
  simp [ofComponent, hempty, hhere, hup]

theorem steps_filter (path : String) :
    (steps path).filter (· ≠ .stay) = (components path).map Step.ofComponent := by
  rw [steps, components, List.filter_map]
  congr 2
  funext part
  simp [Step.ofComponent_eq_stay_iff]

/-! ## Names -/

/-- What a file can be called. -/
structure IsName (name : String) : Prop where
  noSlash : '/' ∉ name.toList
  notEmpty : name ≠ ""
  notHere : name ≠ "."
  notUp : name ≠ ".."

theorem IsName.toList_ne_nil (h : IsName name) : name.toList ≠ [] :=
  fun heq => h.notEmpty (String.toList_injective heq)

theorem IsName.toList_ne_dot (h : IsName name) : name.toList ≠ ['.'] :=
  fun heq => h.notHere (String.toList_injective heq)

theorem IsName.toList_ne_up (h : IsName name) : name.toList ≠ ['.', '.'] :=
  fun heq => h.notUp (String.toList_injective heq)

theorem IsName.ofComponent (h : IsName name) : Step.ofComponent name.toList = .into name := by
  rw [Step.ofComponent_of_name h.toList_ne_nil h.toList_ne_dot h.toList_ne_up,
    String.ofList_toList]

theorem IsName.parts (h : IsName name) : parts name.toList = [name.toList] :=
  parts_of_notMem h.noSlash h.toList_ne_nil

theorem IsName.isAbsolute (h : IsName name) : isAbsolute name = false := by
  rw [FilePath.isAbsolute, decide_eq_false_iff_not]
  exact fun hhead => h.noSlash (List.mem_of_mem_head? hhead)

/-- The path of a place has its names between the slashes. -/
theorem parts_pathOf (hcwd : ∀ name ∈ cwd, IsName name) :
    parts (Session.pathOf cwd).toList = cwd.map String.toList := by
  have hpath : (Session.pathOf cwd).toList =
      [] ++ '/' :: ['/'].intercalate (cwd.map String.toList) := by
    rw [Session.pathOf, String.toList_append, String.toList_intercalate]
    rfl
  rw [hpath, parts_append_slash, parts_nil, List.nil_append]
  rcases eq_or_ne cwd [] with rfl | hne
  · rfl
  · have hslash : ∀ part ∈ cwd.map String.toList, '/' ∉ part :=
      List.forall_mem_map.2 fun name hname => (hcwd name hname).noSlash
    have hempty : ∀ part ∈ cwd.map String.toList, part ≠ [] :=
      List.forall_mem_map.2 fun name hname => (hcwd name hname).toList_ne_nil
    have hpieces : Text.pieces (· = '/') (['/'].intercalate (cwd.map String.toList)) =
        cwd.map String.toList := by
      rw [Text.pieces_eq_splitOnP]
      exact List.splitOn_intercalate '/' hslash (by simpa using hne)
    rw [parts, hpieces]
    exact List.filter_eq_self.2 fun part hpart => decide_eq_true (hempty part hpart)

/-! ## Paths behind one another -/

theorem isAbsolute_pathOf (cwd : List String) : isAbsolute (Session.pathOf cwd) = true := by
  rw [Session.pathOf, isAbsolute, String.toList_append]
  rfl

/-- A relative path stands behind a slash. -/
theorem exists_join (hbase : base ≠ "") (hpath : isAbsolute path = false) :
    ∃ before, (join base path).toList = before ++ '/' :: path.toList ∧
      parts before = parts base.toList := by
  rw [join, if_neg (by simp [hpath])]
  by_cases hslash : base.toList.getLast? = some '/'
  · obtain ⟨before, hbefore⟩ := List.getLast?_eq_some_iff.1 hslash
    refine ⟨before, ?_, ?_⟩
    · simp [hbefore]
    · rw [hbefore, parts_append_slash, parts_nil, List.append_nil]
  · refine ⟨base.toList, ?_, rfl⟩
    simp [hbase, hslash]

theorem parts_join (hbase : base ≠ "") (hpath : isAbsolute path = false) :
    parts (join base path).toList = parts base.toList ++ parts path.toList := by
  obtain ⟨before, hjoin, hbefore⟩ := exists_join hbase hpath
  rw [hjoin, parts_append_slash, hbefore]

theorem ne_empty_of_isAbsolute (h : isAbsolute path = true) : path ≠ "" := by
  rintro rfl
  cases h

theorem isAbsolute_join (hbase : isAbsolute base = true) (path : String) :
    isAbsolute (join base path) = true := by
  have hne : base.toList ≠ [] :=
    fun heq => ne_empty_of_isAbsolute hbase (String.toList_injective heq)
  have happend (text : String) : isAbsolute (base ++ text) = true := by
    rw [isAbsolute, String.toList_append, List.head?_append_of_ne_nil _ hne]
    exact hbase
  rw [join]
  split_ifs with hpath
  · exact hpath
  · exact happend path
  · rw [String.append_assoc]
    exact happend _

/-! ## Plain paths -/

/-- A path without a step up and without a dot at the end. -/
structure IsPlain (path : String) : Prop where
  noUp : ['.', '.'] ∉ components path
  noDotLast : (parts path.toList).getLast? ≠ some ['.']

/-- A path leads from the root along some names. -/
structure LeadsTo (path : String) (names : List String) : Prop where
  isAbsolute : isAbsolute path = true
  steps : (steps path).filter (· ≠ .stay) = names.map Step.into
  noDotLast : (parts path.toList).getLast? ≠ some ['.']

/-- The place that a path names for a run with a working directory. -/
def placeOf (cwd : List String) (path : String) : List String :=
  (if isAbsolute path then [] else cwd) ++ (components path).map String.ofList

/-- Steps into what the components of a path are called. -/
theorem map_ofComponent_components (h : ['.', '.'] ∉ components path) :
    (components path).map Step.ofComponent =
      ((components path).map String.ofList).map Step.into := by
  rw [List.map_map]
  refine List.map_congr_left fun part hpart => ?_
  have hkept := (List.mem_filter.1 hpart).2
  simp only [ne_eq, Bool.and_eq_true, decide_eq_true_eq] at hkept
  exact Step.ofComponent_of_name hkept.1 hkept.2 fun hup => h (hup ▸ hpart)

theorem components_join (hcwd : ∀ name ∈ cwd, IsName name) (hpath : isAbsolute path = false) :
    components (join (Session.pathOf cwd) path) = cwd.map String.toList ++ components path := by
  rw [components_eq, parts_join (ne_empty_of_isAbsolute (isAbsolute_pathOf cwd)) hpath,
    parts_pathOf hcwd, List.filter_append, ← components_eq]
  congr 1
  refine List.filter_eq_self.2 (List.forall_mem_map.2 fun name hname => ?_)
  exact decide_eq_true (hcwd name hname).toList_ne_dot

/-- **A plain path leads to its place**, from the root or from the working directory. -/
theorem leadsTo_join (hcwd : ∀ name ∈ cwd, IsName name) (h : IsPlain path) :
    LeadsTo (join (Session.pathOf cwd) path) (placeOf cwd path) := by
  refine ⟨isAbsolute_join (isAbsolute_pathOf cwd) path, ?_, ?_⟩
  · rw [steps_filter, placeOf]
    cases hpath : FilePath.isAbsolute path with
    | true =>
      rw [join, if_pos hpath, map_ofComponent_components h.noUp]
      rfl
    | false =>
      have hsteps : (cwd.map String.toList).map Step.ofComponent = cwd.map Step.into := by
        rw [List.map_map]
        exact List.map_congr_left fun name hname => (hcwd name hname).ofComponent
      rw [components_join hcwd hpath, List.map_append, map_ofComponent_components h.noUp, hsteps,
        ← List.map_append]
      rfl
  · cases hpath : FilePath.isAbsolute path with
    | true =>
      rw [join, if_pos hpath]
      exact h.noDotLast
    | false =>
      rw [parts_join (ne_empty_of_isAbsolute (isAbsolute_pathOf cwd)) hpath, parts_pathOf hcwd,
        List.getLast?_append]
      intro hdot
      rcases Option.or_eq_some_iff.1 hdot with hlast | ⟨-, hlast⟩
      · exact h.noDotLast hlast
      · obtain ⟨name, hname, heq⟩ := List.mem_map.1 (List.mem_of_getLast? hlast)
        exact (hcwd name hname).toList_ne_dot heq

/-- **The path without the slashes at its end goes the same way**, and its last step is into
    what it names. -/
theorem LeadsTo.steps_trimSlashes (h : LeadsTo path names) :
    (FilePath.steps (trimSlashes path)).filter (· ≠ .stay) = names.map Step.into ∧
      (names ≠ [] → (FilePath.steps (trimSlashes path)).getLast? ≠ some .stay) := by
  have hparts : parts (trimSlashes path).toList = parts path.toList := by
    rw [trimSlashes, String.toList_ofList, parts_trimEnd]
  have hsteps : (FilePath.steps (trimSlashes path)).filter (· ≠ .stay) = names.map Step.into := by
    rw [steps_filter, components_eq, hparts, ← components_eq, ← steps_filter, h.steps]
  refine ⟨hsteps, fun hnames hstay => ?_⟩
  rw [FilePath.steps, List.getLast?_map] at hstay
  obtain ⟨part, hlast, hpart⟩ := Option.map_eq_some_iff.1 hstay
  rcases Step.ofComponent_eq_stay_iff.1 hpart with rfl | rfl
  · -- nothing but a slash stands before an empty piece, unless all the path is empty
    have htrimmed : (trimSlashes path).toList ≠ [] := by
      intro hempty
      rw [steps_filter, components_eq, hempty, parts_nil] at hsteps
      exact hnames (List.map_eq_nil_iff.1 hsteps.symm)
    refine Text.getLast?_pieces_ne htrimmed (fun c hc => ?_) hlast
    rw [trimSlashes, String.toList_ofList] at hc
    exact Text.of_mem_getLast?_trimEnd hc
  · refine h.noDotLast ?_
    obtain ⟨before, hbefore⟩ := List.getLast?_eq_some_iff.1 hlast
    rw [← hparts, parts, hbefore, List.filter_append]
    exact List.getLast?_concat

/-- **A name behind a path goes one step further.** -/
theorem LeadsTo.steps_join (h : LeadsTo path names) (hname : IsName name) :
    (FilePath.steps (join path name)).filter (· ≠ .stay) = (names ++ [name]).map Step.into ∧
      (FilePath.steps (join path name)).getLast? ≠ some .stay := by
  obtain ⟨before, hjoin, hbefore⟩ :=
    exists_join (ne_empty_of_isAbsolute h.isAbsolute) hname.isAbsolute
  have hparts : parts (join path name).toList = parts path.toList ++ [name.toList] := by
    rw [hjoin, parts_append_slash, hbefore, hname.parts]
  constructor
  · rw [steps_filter, components_eq, hparts, List.filter_append, ← components_eq, List.map_append,
      ← steps_filter, h.steps, List.filter_cons_of_pos (by simp [hname.toList_ne_dot]),
      List.map_append]
    simp [hname.ofComponent]
  · rw [FilePath.steps, hjoin, Text.pieces_append_cut (by simp), pieces_of_notMem hname.noSlash,
      List.map_append, List.map_singleton, List.getLast?_concat, hname.ofComponent]
    simp

end FilePath
end ApiDigest
