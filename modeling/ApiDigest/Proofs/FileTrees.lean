/-
  Files that are written and the directories that are made for them.

  A place can be written to if no file stands above it.  Directories that are missing on
  the way are made then, each in the one above it; and where a file stands in the way
  nothing is made at all, because it is met before anything is.

  * `FileTree.IsClear` says that no file stands at a place or above it;
  * `FileTree.makeWalk_of_clear` and `FileTree.makeWalk_of_blocked` are the two ways in
    which making directories ends;
  * `FileTree.WrittenAt` is what may differ after a file was written, and
    `FileTree.writtenAt_put` that nothing else does.
-/
import ApiDigest.Proofs.FilePaths
import ApiDigest.Proofs.Lookup

namespace ApiDigest

theorem Fields.insert_insert {α : Type} (key : String) (first second : α)
    (fields : List (String × α)) :
    insert key second (insert key first fields) = insert key second fields := by
  induction fields with
  | nil => simp [insert]
  | cons field rest ih =>
    obtain ⟨k, v⟩ := field
    by_cases hk : k = key <;> simp [insert, hk, ih]

namespace FileTree

open FilePath (Step)

variable {tree new : FileTree} {place names above other : List String} {name text : String}

/-! ## Places -/

@[simp] theorem at?_nil (tree : FileTree) : tree.at? [] = some tree := by cases tree <;> rfl

@[simp] theorem put_nil (tree new : FileTree) : tree.put [] new = new := by cases tree <;> rfl

/-- What stands below a place is found from there. -/
theorem at?_append (tree : FileTree) (place below : List String) :
    tree.at? (place ++ below) = (tree.at? place).bind fun child => child.at? below := by
  induction place generalizing tree with
  | nil => simp
  | cons name rest ih =>
    cases tree with
    | file text => rfl
    | directory entries =>
      rw [List.cons_append, at?, at?, Option.bind_assoc]
      exact Option.bind_congr fun child _ => ih child

/-- Nothing stands below what is missing. -/
theorem at?_eq_none_below (h : above <+: place) (hnone : tree.at? above = none) :
    tree.at? place = none := by
  obtain ⟨below, rfl⟩ := h
  rw [at?_append, hnone, Option.bind_none]

/-- What is put below a place is put into what stands there. -/
theorem put_append (tree : FileTree) (place below : List String) (new : FileTree) :
    tree.put (place ++ below) new =
      tree.put place (((tree.at? place).getD (.directory [])).put below new) := by
  induction place generalizing tree with
  | nil => simp
  | cons name rest ih =>
    cases tree with
    | file text => rfl
    | directory entries =>
      simp only [List.cons_append, put, at?]
      rw [ih]
      cases Fields.get? name entries with
      | some child => rfl
      | none => cases rest <;> rfl

theorem put_put (tree : FileTree) (place : List String) (first second : FileTree) :
    (tree.put place first).put place second = tree.put place second := by
  induction place generalizing tree with
  | nil => simp
  | cons name rest ih =>
    cases tree with
    | file text => rfl
    | directory entries =>
      simp only [put]
      rw [Fields.get?_insert, if_pos rfl, Option.getD_some, ih, Fields.insert_insert]

/-! ## Places without a file above them -/

/-- Whether a directory stands at a place. -/
def IsDirectoryAt (tree : FileTree) (place : List String) : Prop :=
  ∃ entries, tree.at? place = some (.directory entries)

/-- No file stands at a place or above it. -/
def IsClear (tree : FileTree) (place : List String) : Prop :=
  ∀ above, above <+: place → ∀ text, tree.at? above ≠ some (.file text)

theorem IsClear.upward (h : tree.IsClear place) (habove : above <+: place) :
    tree.IsClear above :=
  fun _ hnext => h _ (hnext.trans habove)

theorem IsClear.cases (h : tree.IsClear place) :
    tree.at? place = none ∨ tree.IsDirectoryAt place := by
  cases hat : tree.at? place with
  | none => exact .inl rfl
  | some child =>
    cases child with
    | file text => exact absurd hat (h place List.prefix_rfl text)
    | directory entries => exact .inr ⟨entries, hat⟩

theorem IsClear.isDirectoryAt (h : tree.IsClear place) (hsome : (tree.at? place).isSome) :
    tree.IsDirectoryAt place :=
  h.cases.resolve_left (Option.isSome_iff_ne_none.1 hsome)

/-- One name further, it is what stands there that counts. -/
theorem isClear_snoc_iff : tree.IsClear (names ++ [name]) ↔
    tree.IsClear names ∧ ∀ text, tree.at? (names ++ [name]) ≠ some (.file text) := by
  constructor
  · intro h
    exact ⟨h.upward (List.prefix_append _ _), h _ List.prefix_rfl⟩
  · rintro ⟨h, hlast⟩ above habove
    rcases List.prefix_concat_iff.1 habove with rfl | habove
    · exact hlast
    · exact h above habove

/-- A file that only stands at the last name of a place. -/
theorem exists_file_of_blocked (h : ¬ tree.IsClear (names ++ [name]))
    (hclear : tree.IsClear names) :
    ∃ text, tree.at? (names ++ [name]) = some (.file text) ∧ (tree.at? names).isSome := by
  obtain ⟨text, hfile⟩ : ∃ text, tree.at? (names ++ [name]) = some (.file text) := by
    by_contra hnone
    exact h (isClear_snoc_iff.2 ⟨hclear, fun text hat => hnone ⟨text, hat⟩⟩)
  refine ⟨text, hfile, ?_⟩
  rw [at?_append] at hfile
  obtain ⟨child, hchild, -⟩ := Option.bind_eq_some_iff.1 hfile
  exact Option.isSome_of_eq_some hchild

theorem isClear_nil_iff : tree.IsClear [] ↔ tree.IsDirectoryAt [] := by
  cases tree with
  | file text => simp [IsClear, IsDirectoryAt]
  | directory entries => simp [IsClear, IsDirectoryAt]

/-- Below a directory it is the entry that counts, and a missing one is as good as empty. -/
theorem isClear_cons_iff {entries : List (String × FileTree)} :
    (directory entries).IsClear (name :: place) ↔
      ((Fields.get? name entries).getD (.directory [])).IsClear place := by
  constructor
  · intro h above habove text hat
    cases hget : Fields.get? name entries with
    | none => cases above <;> simp [hget, at?] at hat
    | some child =>
      rw [hget] at hat
      exact h (name :: above) (List.cons_prefix_cons.2 ⟨rfl, habove⟩) text (by rwa [at?, hget])
  · intro h above habove text hat
    rcases above with _ | ⟨first, rest⟩
    · simp at hat
    · obtain ⟨rfl, hrest⟩ := List.cons_prefix_cons.1 habove
      cases hget : Fields.get? first entries with
      | none => rw [at?, hget] at hat; cases hat
      | some child =>
        rw [hget] at h
        exact h rest hrest text (by rwa [at?, hget] at hat)

/-! ## What a change does -/

/-- What is put at a place stands there, unless a file is above it. -/
theorem at?_put_snoc (h : tree.IsClear names) (name : String) (new : FileTree) :
    (tree.put (names ++ [name]) new).at? (names ++ [name]) = some new := by
  induction names generalizing tree with
  | nil =>
    obtain ⟨entries, hentries⟩ := isClear_nil_iff.1 h
    obtain rfl := Option.some.inj ((at?_nil tree).symm.trans hentries)
    simp [put, at?, Fields.get?_insert]
  | cons first rest ih =>
    cases tree with
    | file text => exact absurd (at?_nil _) (h [] List.nil_prefix text)
    | directory entries =>
      rw [List.cons_append, put, at?, Fields.get?_insert, if_pos rfl]
      exact ih (isClear_cons_iff.1 h)

theorem at?_put_of_clear (h : tree.IsClear place) (new : FileTree) :
    (tree.put place new).at? place = some new := by
  rcases List.eq_nil_or_concat place with rfl | ⟨names, name, rfl⟩
  · rw [put_nil, at?_nil]
  · rw [List.concat_eq_append] at h ⊢
    exact at?_put_snoc (isClear_snoc_iff.1 h).1 name new

/-- Above a place something was put at, there are directories. -/
theorem isDirectoryAt_put_snoc (h : tree.IsClear names) (name : String) (new : FileTree)
    (habove : above <+: names) : (tree.put (names ++ [name]) new).IsDirectoryAt above := by
  induction above generalizing tree names with
  | nil =>
    cases tree with
    | file text => exact absurd (at?_nil _) (h [] List.nil_prefix text)
    | directory entries => cases names <;> exact ⟨_, at?_nil _⟩
  | cons first above ih =>
    obtain ⟨rest, rfl⟩ : ∃ rest, names = first :: rest := by
      obtain ⟨below, rfl⟩ := habove
      exact ⟨above ++ below, rfl⟩
    cases tree with
    | file text => exact absurd (at?_nil _) (h [] List.nil_prefix text)
    | directory entries =>
      obtain ⟨made, hmade⟩ := ih (isClear_cons_iff.1 h) (List.cons_prefix_cons.1 habove).2
      refine ⟨made, ?_⟩
      rw [List.cons_append, put, at?, Fields.get?_insert, if_pos rfl]
      exact hmade

/-- What is put at a place is not seen from places that are neither above nor below. -/
theorem at?_put_of_apart (tree new : FileTree) (habove : ¬ other <+: place)
    (hbelow : ¬ place <+: other) : (tree.put place new).at? other = tree.at? other := by
  induction place generalizing tree other with
  | nil => exact absurd List.nil_prefix hbelow
  | cons name rest ih =>
    cases tree with
    | file text => rfl
    | directory entries =>
      rcases other with _ | ⟨first, other⟩
      · exact absurd List.nil_prefix habove
      · rw [put, at?, at?, Fields.get?_insert]
        by_cases hfirst : first = name
        · subst hfirst
          rw [List.cons_prefix_cons] at habove hbelow
          rw [if_pos rfl, Option.bind_some, ih _ (by tauto) (by tauto)]
          cases Fields.get? first entries with
          | some child => rfl
          | none =>
            rcases other with _ | ⟨next, other⟩
            · exact absurd ⟨rfl, List.nil_prefix⟩ habove
            · rfl
        · rw [if_neg hfirst]

/-! ## Walks -/

theorem walk_append (tree : FileTree) (start : List String) (steps others : List Step) :
    tree.walk start (steps ++ others) =
      (tree.walk start steps).bind fun place => tree.walk place others := by
  induction steps generalizing start with
  | nil => rfl
  | cons step rest ih =>
    simp only [List.cons_append, walk]
    cases tree.at? start with
    | none => rfl
    | some child =>
      cases child with
      | file text => rfl
      | directory entries => cases step <;> exact ih _

/-- The last step of a walk along names. -/
theorem walk_snoc (tree : FileTree) (names : List String) (name : String) {place : List String}
    (h : tree.walk [] (names.map Step.into) = .ok place) :
    tree.walk [] ((names ++ [name]).map Step.into) =
      match tree.at? place with
      | none => .error .notFound
      | some (.file _) => .error .notADirectory
      | some (.directory _) => .ok (place ++ [name]) := by
  rw [List.map_append, walk_append, h]
  rfl

/-- A walk that ends where there is nothing to stand in goes no further. -/
theorem walk_snoc_error (tree : FileTree) (names : List String) (name : String)
    {fault : FileFault} (h : tree.walk [] (names.map Step.into) = .error fault) :
    tree.walk [] ((names ++ [name]).map Step.into) = .error fault := by
  rw [List.map_append, walk_append, h]
  rfl

/-- **A walk that meets no file arrives if the last directory is there.** -/
theorem walk_of_clear (h : tree.IsClear names) (name : String) :
    tree.walk [] ((names ++ [name]).map Step.into) =
      if (tree.at? names).isSome then .ok (names ++ [name]) else .error .notFound := by
  induction names using List.reverseRecOn generalizing name with
  | nil =>
    obtain ⟨entries, hentries⟩ := isClear_nil_iff.1 h
    have hstart : tree.walk [] (([] : List String).map Step.into) = .ok [] := rfl
    rw [walk_snoc tree [] name hstart, hentries]
    rfl
  | append_singleton names last ih =>
    have hwalk := ih (h.upward (List.prefix_append _ _)) last
    cases hat : tree.at? names with
    | none =>
      rw [hat] at hwalk
      rw [walk_snoc_error _ _ _ hwalk, at?_eq_none_below (List.prefix_append _ _) hat]
      rfl
    | some child =>
      rw [hat] at hwalk
      rw [walk_snoc _ _ _ hwalk]
      rcases h.cases with hnone | ⟨entries, hentries⟩
      · rw [hnone]; rfl
      · rw [hentries]; rfl

/-- **A walk that meets a file stops there.** -/
theorem walk_of_blocked (h : ¬ tree.IsClear names) (name : String) :
    tree.walk [] ((names ++ [name]).map Step.into) = .error .notADirectory := by
  induction names using List.reverseRecOn generalizing name with
  | nil =>
    cases tree with
    | file text => rfl
    | directory entries => exact absurd (isClear_nil_iff.2 ⟨entries, rfl⟩) h
  | append_singleton names last ih =>
    by_cases hclear : tree.IsClear names
    · obtain ⟨text, hfile, hsome⟩ := exists_file_of_blocked h hclear
      have hwalk := walk_of_clear hclear last
      rw [if_pos hsome] at hwalk
      rw [walk_snoc _ _ _ hwalk, hfile]
    · exact walk_snoc_error _ _ _ (ih hclear last)

/-! ## Directories -/

/-- The tree with a directory at a place, unless something stands there. -/
def withDirectory (tree : FileTree) (place : List String) : FileTree :=
  if (tree.at? place).isSome then tree else tree.put place (.directory [])

theorem withDirectory_of_isSome (h : (tree.at? place).isSome) : tree.withDirectory place = tree :=
  if_pos h

theorem withDirectory_of_isDirectoryAt (h : tree.IsDirectoryAt (names ++ [name])) :
    tree.withDirectory names = tree := by
  obtain ⟨entries, hentries⟩ := h
  refine withDirectory_of_isSome (Option.isSome_iff_ne_none.2 fun hnone => ?_)
  rw [at?_eq_none_below (List.prefix_append _ _) hnone] at hentries
  cases hentries

theorem withDirectory_of_none (h : tree.at? place = none) :
    tree.withDirectory place = tree.put place (.directory []) := by
  rw [withDirectory, h]
  rfl

/-- The directory is there then, with all those above it. -/
theorem isDirectoryAt_withDirectory (h : tree.IsClear place) (habove : above <+: place) :
    (tree.withDirectory place).IsDirectoryAt above := by
  cases hat : tree.at? place with
  | some child =>
    rw [withDirectory_of_isSome (Option.isSome_of_eq_some hat)]
    refine (h.upward habove).isDirectoryAt (Option.isSome_iff_ne_none.2 fun hnone => ?_)
    rw [at?_eq_none_below habove hnone] at hat
    cases hat
  | none =>
    rw [withDirectory_of_none hat]
    rcases List.eq_nil_or_concat place with rfl | ⟨names, name, rfl⟩
    · rw [at?_nil] at hat
      cases hat
    · rw [List.concat_eq_append] at h habove ⊢
      rcases List.prefix_concat_iff.1 habove with rfl | habove
      · exact ⟨_, at?_put_snoc (isClear_snoc_iff.1 h).1 name _⟩
      · exact isDirectoryAt_put_snoc (isClear_snoc_iff.1 h).1 name _ habove

theorem isClear_withDirectory (h : tree.IsClear place) : (tree.withDirectory place).IsClear place :=
  fun above habove text hfile => by
    obtain ⟨entries, hentries⟩ := isDirectoryAt_withDirectory h habove
    rw [hfile] at hentries
    cases hentries

theorem isSome_withDirectory (h : tree.IsClear place) :
    ((tree.withDirectory place).at? place).isSome := by
  obtain ⟨entries, hentries⟩ := isDirectoryAt_withDirectory h List.prefix_rfl
  exact Option.isSome_of_eq_some hentries

/-- A directory that is made is empty. -/
theorem at?_withDirectory_snoc (h : tree.IsClear names) (name : String) :
    (tree.withDirectory names).at? (names ++ [name]) = tree.at? (names ++ [name]) := by
  cases hat : tree.at? names with
  | some child => rw [withDirectory_of_isSome (Option.isSome_of_eq_some hat)]
  | none =>
    rw [withDirectory_of_none hat, at?_append, at?_append, hat, at?_put_of_clear h]
    rfl

/-- What is put into a directory need not find it there. -/
theorem put_withDirectory (h : tree.IsClear names) (name : String) (new : FileTree) :
    (tree.withDirectory names).put (names ++ [name]) new = tree.put (names ++ [name]) new := by
  cases hat : tree.at? names with
  | some child => rw [withDirectory_of_isSome (Option.isSome_of_eq_some hat)]
  | none =>
    rw [withDirectory_of_none hat, put_append, put_append tree names, at?_put_of_clear h, put_put,
      hat]
    rfl

theorem withDirectory_withDirectory (h : tree.IsClear names) (name : String) :
    (tree.withDirectory names).withDirectory (names ++ [name]) =
      tree.withDirectory (names ++ [name]) := by
  cases hat : tree.at? (names ++ [name]) with
  | some child =>
    have hsome : (tree.at? names).isSome := Option.isSome_iff_ne_none.2 fun hnone => by
      rw [at?_eq_none_below (List.prefix_append _ _) hnone] at hat
      cases hat
    rw [withDirectory_of_isSome hsome]
  | none =>
    rw [withDirectory_of_none ((at?_withDirectory_snoc h name).trans hat), put_withDirectory h,
      withDirectory_of_none hat]

section Keeping

variable {start : List String} {steps : List Step} {fault : FileFault}

theorem keepDirectory_of_error (h : tree.walk start steps = .error fault) :
    tree.keepDirectory start steps = .error fault := by
  simp [keepDirectory, makeDirectory, hasDirectory, h]

theorem keepDirectory_of_file {text : Option String} (h : tree.walk start steps = .ok place)
    (hfile : tree.at? place = some (.file text)) :
    tree.keepDirectory start steps = .error .alreadyExists := by
  simp [keepDirectory, makeDirectory, hasDirectory, h, hfile]

theorem keepDirectory_of_clear (h : tree.walk start steps = .ok place)
    (hclear : tree.IsClear place) :
    tree.keepDirectory start steps = .ok (tree.withDirectory place) := by
  rcases hclear.cases with hnone | ⟨entries, hentries⟩
  · simp [keepDirectory, makeDirectory, withDirectory, h, hnone]
  · simp [keepDirectory, makeDirectory, hasDirectory, withDirectory, h, hentries]

/-- Only where a walk leads matters for the directory at its end. -/
theorem keepBelow_congr {others : List Step}
    (h : ∀ tree : FileTree, tree.walk start steps = tree.walk start others) (tree : FileTree)
    (made : FileTree × Option FileFault) :
    tree.keepBelow start steps made = tree.keepBelow start others made := by
  have hkeep (tree : FileTree) :
      tree.keepDirectory start steps = tree.keepDirectory start others := by
    unfold keepDirectory makeDirectory hasDirectory
    rw [h]
  simp only [keepBelow, hkeep]

end Keeping

theorem makeWalk_snoc (tree : FileTree) (names : List String) (name : String) :
    tree.makeWalk [] ((names ++ [name]).map Step.into).reverse =
      tree.keepBelow [] ((names ++ [name]).map Step.into)
        (tree.makeWalk [] (names.map Step.into).reverse) := by
  rw [List.map_append, List.reverse_append]
  change tree.keepBelow [] (Step.into name :: (names.map Step.into).reverse).reverse _ = _
  rw [List.reverse_cons, List.reverse_reverse]
  rfl

/-- **Where no file is in the way, the directories along a walk are made**, and nothing is
    said. -/
theorem makeWalk_of_clear (h : tree.IsClear names) :
    tree.makeWalk [] (names.map Step.into).reverse = (tree.withDirectory names, none) := by
  induction names using List.reverseRecOn with
  | nil => rw [withDirectory_of_isSome (by simp)]; rfl
  | append_singleton names name ih =>
    have hnames := (isClear_snoc_iff.1 h).1
    rw [makeWalk_snoc, ih hnames]
    cases hat : tree.at? names with
    | some child =>
      have hwalk := walk_of_clear hnames name
      rw [hat] at hwalk
      rw [keepBelow, keepDirectory_of_clear hwalk h]
    | none =>
      -- the walk finds nothing to stand in, and is taken again in what was made above
      have hwalk := walk_of_clear hnames name
      rw [hat] at hwalk
      have hmade := walk_of_clear (isClear_withDirectory hnames) name
      rw [if_pos (isSome_withDirectory hnames)] at hmade
      have hclear : (tree.withDirectory names).IsClear (names ++ [name]) := by
        refine isClear_snoc_iff.2 ⟨isClear_withDirectory hnames, ?_⟩
        rw [at?_withDirectory_snoc hnames]
        exact (isClear_snoc_iff.1 h).2
      rw [keepBelow, keepDirectory_of_error hwalk]
      simp only
      rw [keepDirectory_of_clear hmade hclear, withDirectory_withDirectory hnames]

/-- **Where a file is in the way, nothing is made.** -/
theorem makeWalk_of_blocked (h : ¬ tree.IsClear (names ++ [name])) :
    ∃ fault, tree.makeWalk [] ((names ++ [name]).map Step.into).reverse = (tree, some fault) := by
  rw [makeWalk_snoc]
  by_cases hclear : tree.IsClear names
  · obtain ⟨text, hfile, hsome⟩ := exists_file_of_blocked h hclear
    have hwalk := walk_of_clear hclear name
    rw [if_pos hsome] at hwalk
    exact ⟨.alreadyExists, by simp only [keepBelow, keepDirectory_of_file hwalk hfile]⟩
  · have hwalk := walk_of_blocked hclear name
    exact ⟨.notADirectory, by simp only [keepBelow, keepDirectory_of_error hwalk]⟩

/-! ## Paths -/

/-- A step that stays asks for a directory, and so does the step after it. -/
theorem walk_stay (tree : FileTree) (start : List String) {steps : List Step} (h : steps ≠ []) :
    tree.walk start (.stay :: steps) = tree.walk start steps := by
  obtain ⟨step, rest, rfl⟩ := List.exists_cons_of_ne_nil h
  simp only [walk]
  cases tree.at? start with
  | none => rfl
  | some child => cases child <;> rfl

/-- Steps that stay make no difference before another one. -/
theorem walk_filter {steps : List Step} (h : steps.getLast? ≠ some .stay) (tree : FileTree)
    (start : List String) :
    tree.walk start steps = tree.walk start (steps.filter (· ≠ .stay)) := by
  induction steps generalizing start with
  | nil => rfl
  | cons step rest ih =>
    rw [List.getLast?_cons] at h
    have hrest : rest.getLast? ≠ some .stay := fun hstay => h (by rw [hstay]; rfl)
    by_cases hstep : step = .stay
    · subst hstep
      have hne : rest ≠ [] := by
        rintro rfl
        exact h rfl
      rw [List.filter_cons_of_neg (by simp), walk_stay tree start hne, ih hrest]
    · rw [List.filter_cons_of_pos (by simpa using hstep)]
      simp only [walk]
      cases tree.at? start with
      | none => rfl
      | some child =>
        cases child with
        | file text => rfl
        | directory entries =>
          cases step with
          | stay => exact absurd rfl hstep
          | up => exact ih hrest _
          | into name => exact ih hrest _

variable {path : String}

/-- Making the directories of a path is a walk from the root. -/
theorem makeDirectories_eq (h : FilePath.LeadsTo path names) (tree : FileTree)
    (cwd : List String) :
    tree.makeDirectories cwd path = tree.makeWalk [] (names.map Step.into).reverse := by
  obtain ⟨hsteps, hlast⟩ := h.steps_trimSlashes
  rw [makeDirectories, if_pos h.isAbsolute]
  simp only [hsteps]
  rcases List.eq_nil_or_concat names with rfl | ⟨names, name, rfl⟩
  · rfl
  · rw [List.concat_eq_append] at hsteps hlast ⊢
    rw [makeWalk_snoc, List.map_append, List.reverse_append, ← List.map_append, ← hsteps]
    refine keepBelow_congr (fun tree => ?_) tree _
    exact walk_filter (hlast (by simp)) tree []

/-- A file is found from the root, too. -/
theorem locate_join (h : FilePath.LeadsTo path names) (hname : FilePath.IsName name)
    (tree : FileTree) (cwd : List String) :
    tree.locate cwd (FilePath.join path name) =
      tree.walk [] ((names ++ [name]).map Step.into) := by
  obtain ⟨hsteps, hlast⟩ := h.steps_join hname
  have habsolute := FilePath.isAbsolute_join h.isAbsolute name
  rw [locate, if_neg (FilePath.ne_empty_of_isAbsolute habsolute), if_pos habsolute,
    walk_filter hlast, hsteps]

/-! ## Files -/

/-- **What writing a file changes**: the file has the text, the directories above it are
    there, if need be as new ones, and nothing else is different. -/
structure WrittenAt (before after : FileTree) (place : List String) (text : String) : Prop where
  file : after.at? place = some (.file (some text))
  /-- It took no directory's place. -/
  noDirectory : ¬ before.IsDirectoryAt place
  above : ∀ above, above <+: place → above ≠ place →
    after.IsDirectoryAt above ∧ (before.at? above = none ∨ before.IsDirectoryAt above)
  elsewhere : ∀ other, ¬ other <+: place → after.at? other = before.at? other

theorem writtenAt_put (h : tree.IsClear names) (hplace : ¬ tree.IsDirectoryAt (names ++ [name]))
    (text : String) :
    WrittenAt tree (tree.put (names ++ [name]) (.file (some text))) (names ++ [name]) text where
  file := at?_put_snoc h name _
  noDirectory := hplace
  above := by
    intro above habove hne
    have hnames : above <+: names := (List.prefix_concat_iff.1 habove).resolve_left hne
    exact ⟨isDirectoryAt_put_snoc h name _ hnames, (h.upward hnames).cases⟩
  elsewhere := by
    intro other hother
    by_cases hbelow : names ++ [name] <+: other
    · -- below a file there is nothing, before and after
      obtain ⟨below, rfl⟩ := hbelow
      rcases below with _ | ⟨first, below⟩
      · exact absurd (by simp) hother
      · rw [at?_append _ (names ++ [name]), at?_append _ (names ++ [name]), at?_put_snoc h]
        cases hat : tree.at? (names ++ [name]) with
        | none => rfl
        | some child =>
          cases child with
          | file text => rfl
          | directory entries => exact absurd ⟨entries, hat⟩ hplace
    · exact at?_put_of_apart tree _ hother hbelow

section Writing

variable (h : FilePath.LeadsTo path names) (hname : FilePath.IsName name) (cwd : List String)
  (text : String)

include h hname

/-- In a directory that is there by now, a file is written unless a directory has its name. -/
theorem writeText_of_clear (hclear : tree.IsClear names)
    (hplace : ¬ tree.IsDirectoryAt (names ++ [name])) :
    (tree.withDirectory names).writeText cwd (FilePath.join path name) text =
      .ok (tree.put (names ++ [name]) (.file (some text))) := by
  have hwalk := walk_of_clear (isClear_withDirectory hclear) name
  rw [if_pos (isSome_withDirectory hclear)] at hwalk
  rw [writeText, locate_join h hname, hwalk]
  simp only [at?_withDirectory_snoc hclear, put_withDirectory hclear]
  cases hat : tree.at? (names ++ [name]) with
  | none => rfl
  | some child =>
    cases child with
    | file text => rfl
    | directory entries => exact absurd ⟨entries, hat⟩ hplace

theorem writeText_of_directory (hclear : tree.IsClear names)
    (hplace : tree.IsDirectoryAt (names ++ [name])) :
    (tree.withDirectory names).writeText cwd (FilePath.join path name) text =
      .error .isADirectory := by
  obtain ⟨entries, hentries⟩ := hplace
  have hwalk := walk_of_clear (isClear_withDirectory hclear) name
  rw [if_pos (isSome_withDirectory hclear)] at hwalk
  rw [writeText, locate_join h hname, hwalk]
  simp only [at?_withDirectory_snoc hclear, hentries]

theorem writeText_of_blocked (hblocked : ¬ tree.IsClear names) :
    tree.writeText cwd (FilePath.join path name) text = .error .notADirectory := by
  rw [writeText, locate_join h hname, walk_of_blocked hblocked]

end Writing

end FileTree
end ApiDigest
