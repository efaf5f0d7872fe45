/-
  What generating a digest does to the files.

  A run reads settings and a document first, and only then makes a directory and writes a
  file.  So it fails with the files as they were, or it leaves nothing but the new file
  behind, in a directory that is made for it if need be.

  * `Session.SettingsSaid` and `Session.DocumentAt` are what a run reads from a tree;
  * `Session.Refused` has the reasons for which a run fails;
  * `Session.generate_tree`: a run that fails leaves the tree alone, and one that succeeds
    has written the digest of its document, in a text that it can be read back from, and that
    is all.
-/
import ApiDigest.Generate
import ApiDigest.Proofs.FileTrees
import ApiDigest.Proofs.WrittenDigests

namespace ApiDigest.Session

open FilePath (IsName IsPlain LeadsTo placeOf)

/-! ## What a run reads -/

section Reading

variable (tree : FileTree) (cwd : List String) (flags : GenerateFlags)

/-- The path of the settings file in the working directory. -/
def settingsPath (cwd : List String) : String := FilePath.join (pathOf cwd) Settings.fileName

/-- The settings file of a run: the one that is asked for, or else the one in the working
    directory. -/
inductive SettingsFile : Option String → String → Prop
  | asked (path : String) : SettingsFile (some path) path
  | found (h : tree.isFile cwd (settingsPath cwd) = true) : SettingsFile none (settingsPath cwd)

/-- What the settings file says; where there is none everything stays open. -/
inductive SettingsSaid (path? : Option String) : Settings → Prop
  | inFile {path text : String} {settings : Settings} (hfile : SettingsFile tree cwd path? path)
      (hread : tree.readText cwd path = .ok text)
      (hsettings : Settings.ofText? text = some settings) : SettingsSaid path? settings
  | open (hpath : path? = none) (habsent : tree.isFile cwd (settingsPath cwd) = false) :
      SettingsSaid path? {}

/-- The plan of a run: the flags on top of the settings file, and the defaults under both. -/
def Planned (plan : Plan) : Prop :=
  ∃ settings, SettingsSaid tree cwd flags.config settings ∧
    (settings.overlay flags.settings).plan? = some plan

/-- The document in the file at an input, after it was brought into the shape that is
    read. -/
def DocumentAt (input : String) (document : Document) : Prop :=
  ∃ text raw value, tree.readText cwd (locateInput (pathOf cwd) input) = .ok text ∧
    (SourceFormat.ofPath (locateInput (pathOf cwd) input)).read text = some raw ∧
    raw.normalize (locateInput (pathOf cwd) input) = .ok value ∧
    Document.ofJson value = .ok document

/-- Why a run fails. -/
inductive Refused : Complaint → Prop
  | settingsMissing {path : String} (hconfig : flags.config = some path)
      (hmissing : tree.find? cwd path = none) : Refused (.settingsMissing path)
  | settingsUnreadable {path : String} {fault : FileFault}
      (hfile : SettingsFile tree cwd flags.config path)
      (hread : tree.readText cwd path = .error fault) : Refused (.settingsUnreadable path fault)
  | settingsMalformed {path text detail : String}
      (hfile : SettingsFile tree cwd flags.config path)
      (hread : tree.readText cwd path = .ok text) (htext : Settings.ofText? text = none) :
      Refused (.settingsMalformed path detail)
  | noInput {settings : Settings} (hsaid : SettingsSaid tree cwd flags.config settings)
      (hplan : (settings.overlay flags.settings).plan? = none) : Refused .noInput
  | inputMissing {plan : Plan} {path : String} (hplan : Planned tree cwd flags plan)
      (hpath : path = locateInput (pathOf cwd) plan.input)
      (hread : tree.readText cwd path = .error .notFound) :
      Refused (.notLoaded (.notFound path))
  | inputUnreadable {plan : Plan} {path : String} {fault : FileFault}
      (hplan : Planned tree cwd flags plan) (hpath : path = locateInput (pathOf cwd) plan.input)
      (hread : tree.readText cwd path = .error fault) (hfault : fault ≠ .notFound) :
      Refused (.notLoaded (.unreadable path fault))
  | inputUnparsable {plan : Plan} {path text detail : String}
      (hplan : Planned tree cwd flags plan) (hpath : path = locateInput (pathOf cwd) plan.input)
      (hread : tree.readText cwd path = .ok text)
      (htext : (SourceFormat.ofPath path).read text = none) :
      Refused (.notLoaded (.unparsable path detail))
  | inputUnrecognized {plan : Plan} {path text : String} {raw : Json}
      (hplan : Planned tree cwd flags plan) (hpath : path = locateInput (pathOf cwd) plan.input)
      (hread : tree.readText cwd path = .ok text)
      (htext : (SourceFormat.ofPath path).read text = some raw)
      (hraw : Dialect.ofJson raw = .unknown) : Refused (.notLoaded (.unrecognized path))
  /-- A file is in the way of the output directory. -/
  | noDirectory {plan : Plan} {path : String} {fault : FileFault}
      (hplan : Planned tree cwd flags plan)
      (hblocked : ¬ tree.IsClear (placeOf cwd plan.output)) : Refused (.noDirectory path fault)
  /-- The name of the file to be written is that of a directory, or the root is a file. -/
  | notWritten {plan : Plan} {path : String} {fault : FileFault}
      (hplan : Planned tree cwd flags plan)
      (hplace : tree.IsDirectoryAt (placeOf cwd plan.output ++ [Digest.fileName]) ∨
        ¬ tree.IsDirectoryAt []) : Refused (.notWritten path fault)

end Reading

variable {cwd : List String} {flags : GenerateFlags} {session : Session} {plan : Plan}

/-! ## The actions of a run -/

theorem bind_apply {α β : Type} (action : StateM Session α) (next : α → StateM Session β)
    (session : Session) :
    (action >>= next) session = next (action session).1 (action session).2 := rfl

theorem settingsIn_cases {path : String}
    (hfile : SettingsFile session.tree cwd flags.config path) :
    (∃ settings, (world cwd).settingsIn path session = (.ok settings, session) ∧
      SettingsSaid session.tree cwd flags.config settings) ∨
    ∃ complaint, (world cwd).settingsIn path session = (.error complaint, session) ∧
      Refused session.tree cwd flags complaint := by
  have hread : (world cwd).readText path session =
      (session.tree.readText cwd path, session) := rfl
  rw [World.settingsIn, bind_apply, hread]
  cases htext : session.tree.readText cwd path with
  | error fault => exact .inr ⟨_, rfl, .settingsUnreadable hfile htext⟩
  | ok text =>
    simp only
    cases hsettings : Settings.ofText? text with
    | some settings => exact .inl ⟨settings, rfl, .inFile hfile htext hsettings⟩
    | none => exact .inr ⟨_, rfl, .settingsMalformed hfile htext hsettings⟩

theorem settings_asked (cwd : List String) (path : String) (session : Session) :
    (world cwd).settings (some path) (pathOf cwd) session =
      if (session.tree.find? cwd path).isSome then (world cwd).settingsIn path session
      else (.error (.settingsMissing path), session) := by
  have hpath : (world cwd).hasPath path session =
      ((session.tree.find? cwd path).isSome, session) := rfl
  rw [World.settings, bind_apply, hpath]
  cases (session.tree.find? cwd path).isSome <;> rfl

theorem settings_default (cwd : List String) (session : Session) :
    (world cwd).settings none (pathOf cwd) session =
      if session.tree.isFile cwd (settingsPath cwd) then
        (world cwd).settingsIn (settingsPath cwd) session
      else (.ok {}, session) := by
  have hfile : (world cwd).hasFile (settingsPath cwd) session =
      (session.tree.isFile cwd (settingsPath cwd), session) := rfl
  rw [World.settings, bind_apply, ← settingsPath, hfile]
  cases session.tree.isFile cwd (settingsPath cwd) <;> rfl

/-- **Reading the settings** leaves everything as it is, and either says what they are or why
    they cannot be read. -/
theorem settings_cases (cwd : List String) (flags : GenerateFlags) (session : Session) :
    (∃ settings, (world cwd).settings flags.config (pathOf cwd) session = (.ok settings, session) ∧
      SettingsSaid session.tree cwd flags.config settings) ∨
    ∃ complaint, (world cwd).settings flags.config (pathOf cwd) session =
        (.error complaint, session) ∧ Refused session.tree cwd flags complaint := by
  cases hconfig : flags.config with
  | some path =>
    rw [settings_asked]
    cases hfind : session.tree.find? cwd path with
    | none => exact .inr ⟨_, rfl, .settingsMissing hconfig hfind⟩
    | some child =>
      have hfile : SettingsFile session.tree cwd flags.config path := hconfig ▸ .asked path
      rw [← hconfig]
      exact settingsIn_cases hfile
  | none =>
    rw [settings_default]
    cases hfound : session.tree.isFile cwd (settingsPath cwd) with
    | false => exact .inl ⟨{}, rfl, .open rfl hfound⟩
    | true =>
      have hfile : SettingsFile session.tree cwd flags.config (settingsPath cwd) :=
        hconfig ▸ .found hfound
      rw [← hconfig]
      exact settingsIn_cases hfile

/-- A path from the root is no address. -/
theorem isUrl_of_isAbsolute {path : String} (h : FilePath.isAbsolute path = true) :
    isUrl path = false := by
  obtain ⟨rest, hrest⟩ := List.head?_eq_some_iff.1 (of_decide_eq_true h)
  rw [isUrl, Text.startsWith, Text.startsWith, hrest]
  rfl

theorem locateInput_of_local (cwd : List String) {input : String} (hlocal : isUrl input = false) :
    locateInput (pathOf cwd) input = FilePath.join (pathOf cwd) input := by
  rw [locateInput, hlocal]
  rfl

theorem isUrl_locateInput (cwd : List String) {input : String} (hlocal : isUrl input = false) :
    isUrl (locateInput (pathOf cwd) input) = false := by
  rw [locateInput_of_local cwd hlocal]
  exact isUrl_of_isAbsolute (FilePath.isAbsolute_join (FilePath.isAbsolute_pathOf cwd) input)

section Loading

variable {path : String} {fault : FileFault} {text : String}

/-- A file that cannot be read is told apart by whether it is there. -/
theorem load_of_unreadable (hurl : isUrl path = false)
    (hread : session.tree.readText cwd path = .error fault) :
    (world cwd).load path session =
      (.error (if fault = .notFound then .notFound path else .unreadable path fault), session) := by
  have haction : (world cwd).readText path session = (.error fault, session) :=
    congrArg (·, session) hread
  rw [World.load, hurl, if_neg Bool.false_ne_true, bind_apply, World.readDocument, bind_apply,
    haction]
  cases fault <;> rfl

theorem load_of_text (hurl : isUrl path = false)
    (hread : session.tree.readText cwd path = .ok text) :
    (world cwd).load path session =
      ((Json.ofSource path (SourceFormat.ofPath path) text).bind (Json.normalize path),
        session) := by
  have haction : (world cwd).readText path session = (.ok text, session) :=
    congrArg (·, session) hread
  rw [World.load, hurl, if_neg Bool.false_ne_true, bind_apply, World.readDocument, bind_apply,
    haction]
  rfl

theorem digest_of_failure {failure : Failure}
    (hload : (world cwd).load path session = (.error failure, session)) :
    (world cwd).digest path session = (.error (.notLoaded failure), session) := by
  rw [World.digest, bind_apply, hload]
  rfl

theorem digest_of_document {value : Json} {document : Document}
    (hload : (world cwd).load path session = (.ok value, session))
    (hdocument : Document.ofJson value = .ok document) :
    (world cwd).digest path session = (.ok document.digest, session) := by
  rw [World.digest, bind_apply, hload]
  simp only [hdocument]
  rfl

end Loading

/-- **Reading the document** leaves everything as it is, and either gives its digest or says
    what is wrong with it. -/
theorem digest_cases (hlocal : isUrl plan.input = false)
    (hplan : Planned session.tree cwd flags plan) :
    (∃ document, (world cwd).digest (locateInput (pathOf cwd) plan.input) session =
        (.ok document.digest, session) ∧ DocumentAt session.tree cwd plan.input document) ∨
    ∃ complaint, (world cwd).digest (locateInput (pathOf cwd) plan.input) session =
        (.error complaint, session) ∧ Refused session.tree cwd flags complaint := by
  have hurl := isUrl_locateInput cwd hlocal
  unfold DocumentAt
  generalize hpath : locateInput (pathOf cwd) plan.input = path at hurl ⊢
  cases hread : session.tree.readText cwd path with
  | error fault =>
    have hload := load_of_unreadable hurl hread
    refine .inr ⟨_, digest_of_failure hload, ?_⟩
    split_ifs with hfault
    · exact .inputMissing hplan hpath.symm (hfault ▸ hread)
    · exact .inputUnreadable hplan hpath.symm hread hfault
  | ok text =>
    have hload := load_of_text hurl hread
    cases htext : (SourceFormat.ofPath path).read text with
    | none =>
      simp only [Json.ofSource, htext] at hload
      exact .inr ⟨_, digest_of_failure hload, .inputUnparsable hplan hpath.symm hread htext⟩
    | some raw =>
      simp only [Json.ofSource, htext] at hload
      by_cases hraw : Dialect.ofJson raw = .unknown
      · have hnormal : raw.normalize path = .error (.unrecognized path) := by
          rw [Json.normalize, hraw]
        refine .inr ⟨_, digest_of_failure (hload.trans ?_),
          .inputUnrecognized hplan hpath.symm hread htext hraw⟩
        rw [Except.bind, hnormal]
      · -- whatever else stands in it, what is brought into shape is read as a document
        obtain ⟨fields, hnormal, -⟩ := Json.exists_normal hraw path
        have hdocument := Document.ofJson_obj fields
        refine .inl ⟨_, digest_of_document (hload.trans ?_) hdocument,
          text, raw, _, rfl, htext, hnormal, hdocument⟩
        rw [Except.bind, hnormal]

section Writing

variable {directory path text : String} {made : FileTree} {fault : FileFault} {digest : Digest}
  {pretty : Bool}

theorem makeDirectories_eq_ok (h : session.tree.makeDirectories cwd directory = (made, none)) :
    (world cwd).makeDirectories directory session = (.ok (), { session with tree := made }) := by
  simp only [world, h]

theorem makeDirectories_eq_error
    (h : session.tree.makeDirectories cwd directory = (made, some fault)) :
    (world cwd).makeDirectories directory session =
      (.error fault, { session with tree := made }) := by
  simp only [world, h]

theorem writeText_eq_ok (session : Session)
    (h : session.tree.writeText cwd path text = .ok made) :
    (world cwd).writeText path text session = (.ok (), { session with tree := made }) := by
  simp only [world, h]

theorem writeText_eq_error (session : Session)
    (h : session.tree.writeText cwd path text = .error fault) :
    (world cwd).writeText path text session = (.error fault, session) := by
  simp only [world, h]

/-- What happens in a directory that could be made. -/
theorem writeDigest_of_made (h : session.tree.makeDirectories cwd directory = (made, none)) :
    (world cwd).writeDigest digest directory pretty session =
      match made.writeText cwd (FilePath.join directory Digest.fileName) (digest.text pretty) with
      | .ok after => (.ok (FilePath.join directory Digest.fileName), { session with tree := after })
      | .error fault =>
        (.error (.notWritten (FilePath.join directory Digest.fileName) fault),
          { session with tree := made }) := by
  rw [World.writeDigest, bind_apply, makeDirectories_eq_ok h]
  simp only
  rw [bind_apply]
  cases htext : made.writeText cwd (FilePath.join directory Digest.fileName)
    (digest.text pretty) with
  | ok after =>
    rw [writeText_eq_ok { session with tree := made } htext]
    rfl
  | error fault =>
    rw [writeText_eq_error { session with tree := made } htext]
    rfl

theorem writeDigest_of_fault (h : session.tree.makeDirectories cwd directory = (made, some fault)) :
    (world cwd).writeDigest digest directory pretty session =
      (.error (.noDirectory directory fault), { session with tree := made }) := by
  rw [World.writeDigest, bind_apply, makeDirectories_eq_error h]
  rfl

end Writing

/-- **Writing a digest** either changes nothing or does what it is to do. -/
theorem writeDigest_cases {directory : String} (hplan : Planned session.tree cwd flags plan)
    (hdirectory : LeadsTo directory (placeOf cwd plan.output)) (digest : Digest) (pretty : Bool) :
    (∃ after path, (world cwd).writeDigest digest directory pretty session =
        (.ok path, { session with tree := after }) ∧
      session.tree.WrittenAt after (placeOf cwd plan.output ++ [Digest.fileName])
        (digest.text pretty)) ∨
    ∃ complaint, (world cwd).writeDigest digest directory pretty session =
        (.error complaint, session) ∧ Refused session.tree cwd flags complaint := by
  have hname : IsName Digest.fileName := ⟨by decide, by decide, by decide, by decide⟩
  have hmake := FileTree.makeDirectories_eq hdirectory session.tree cwd
  by_cases hclear : session.tree.IsClear (placeOf cwd plan.output)
  · rw [FileTree.makeWalk_of_clear hclear] at hmake
    rw [writeDigest_of_made hmake]
    by_cases hplace : session.tree.IsDirectoryAt (placeOf cwd plan.output ++ [Digest.fileName])
    · -- where that directory stands, all directories above it were there before
      have hsame : session.tree.withDirectory (placeOf cwd plan.output) = session.tree :=
        FileTree.withDirectory_of_isDirectoryAt hplace
      rw [FileTree.writeText_of_directory hdirectory hname cwd _ hclear hplace, hsame]
      exact .inr ⟨_, rfl, .notWritten hplan (.inl hplace)⟩
    · rw [FileTree.writeText_of_clear hdirectory hname cwd _ hclear hplace]
      exact .inl ⟨_, _, rfl, FileTree.writtenAt_put hclear hplace _⟩
  · rcases List.eq_nil_or_concat (placeOf cwd plan.output) with hnil | ⟨names, name, hconcat⟩
    · have hroot : ¬ session.tree.IsDirectoryAt [] := fun hroot =>
        hclear (hnil ▸ FileTree.isClear_nil_iff.2 hroot)
      have hmade : session.tree.makeDirectories cwd directory = (session.tree, none) := by
        rw [hmake, hnil]
        rfl
      rw [writeDigest_of_made hmade, FileTree.writeText_of_blocked hdirectory hname cwd _ hclear]
      exact .inr ⟨_, rfl, .notWritten hplan (.inr hroot)⟩
    · rw [List.concat_eq_append] at hconcat
      obtain ⟨fault, hfault⟩ := FileTree.makeWalk_of_blocked (hconcat ▸ hclear)
      rw [← hconcat] at hfault
      rw [writeDigest_of_fault (hmake.trans hfault)]
      exact .inr ⟨_, rfl, .noDirectory hplan hclear⟩

/-! ## The run -/

/-- The session after something was said. -/
def say (session : Session) (notice : Notice) : Session :=
  { session with said := notice :: session.said }

theorem bind_tell {α : Type} (cwd : List String) (notice : Notice)
    (next : Unit → StateM Session α) (session : Session) :
    ((world cwd).tell notice >>= next) session = next () (session.say notice) := rfl

/-- **Carrying out a plan**: the document is read, and its digest is written if there is one. -/
theorem carryOut_cases (hcwd : ∀ name ∈ cwd, IsName name) (hlocal : isUrl plan.input = false)
    (hplain : IsPlain plan.output) (hplan : Planned session.tree cwd flags plan) :
    (∃ document after, (world cwd).carryOut plan session = (.ok document.digest, after) ∧
      DocumentAt session.tree cwd plan.input document ∧
      session.tree.WrittenAt after.tree (placeOf cwd plan.output ++ [Digest.fileName])
        (document.digest.text plan.pretty)) ∨
    ∃ complaint after, (world cwd).carryOut plan session = (.error complaint, after) ∧
      after.tree = session.tree ∧ Refused session.tree cwd flags complaint := by
  have hdirectory := FilePath.leadsTo_join hcwd hplain
  have hinput : locateInput (world cwd).directory plan.input =
      locateInput (pathOf cwd) plan.input := rfl
  have houtput : FilePath.join (world cwd).directory plan.output =
      FilePath.join (pathOf cwd) plan.output := rfl
  rw [World.carryOut]
  simp only [hinput, houtput]
  rw [bind_tell, bind_apply]
  -- what is said on the way is no part of the tree that the actions see
  generalize hreading : session.say (.reading (locateInput (pathOf cwd) plan.input)) = reading
  have htree : reading.tree = session.tree := hreading ▸ rfl
  have hreadingPlan : Planned reading.tree cwd flags plan := htree.symm ▸ hplan
  rcases digest_cases hlocal hreadingPlan with
    ⟨document, hdigest, hdocument⟩ | ⟨complaint, hdigest, hrefused⟩
  · rw [hdigest]
    simp only
    rw [bind_tell, bind_apply]
    generalize hcounted : reading.say
      (.counted document.digest.operations.length document.digest.schemas.length) = counted
    have hsame : counted.tree = session.tree := hcounted ▸ htree
    have hcountedPlan : Planned counted.tree cwd flags plan := hsame.symm ▸ hplan
    rcases writeDigest_cases hcountedPlan hdirectory document.digest plan.pretty with
      ⟨after, path, hwrite, hwritten⟩ | ⟨complaint, hwrite, hrefused⟩
    · rw [hwrite]
      exact .inl ⟨document, _, rfl, htree ▸ hdocument, hsame ▸ hwritten⟩
    · rw [hwrite]
      exact .inr ⟨complaint, counted, rfl, hsame, hsame ▸ hrefused⟩
  · rw [hdigest]
    exact .inr ⟨complaint, reading, rfl, htree, htree ▸ hrefused⟩

/-- Text is written with line breaks unless the command line or the settings file says
    otherwise. -/
theorem pretty_of_plan? {settings : Settings}
    (h : (settings.overlay flags.settings).plan? = some plan) :
    plan.pretty = (!flags.compact && settings.pretty.getD true) := by
  rw [Settings.plan?] at h
  cases hinput : (settings.overlay flags.settings).input with
  | none => rw [hinput] at h; cases h
  | some input =>
    rw [hinput] at h
    simp only at h
    split_ifs at h
    obtain rfl := Option.some.inj h
    cases hcompact : flags.compact <;>
      simp [Settings.overlay, GenerateFlags.settings, hcompact]

theorem generate_of_settings {settings : Settings}
    (h : (world cwd).settings flags.config (pathOf cwd) session = (.ok settings, session)) :
    (world cwd).generate flags session =
      match (settings.overlay flags.settings).plan? with
      | none => (.error .noInput, session)
      | some plan => (world cwd).carryOut plan session := by
  have hdirectory : (world cwd).directory = pathOf cwd := rfl
  rw [World.generate, bind_apply, hdirectory, h]
  simp only
  cases (settings.overlay flags.settings).plan? <;> rfl

theorem generate_of_refusal {complaint : Complaint}
    (h : (world cwd).settings flags.config (pathOf cwd) session = (.error complaint, session)) :
    (world cwd).generate flags session = (.error complaint, session) := by
  have hdirectory : (world cwd).directory = pathOf cwd := rfl
  rw [World.generate, bind_apply, hdirectory, h]
  rfl

/-- Both texts of a digest are made of its tokens. -/
theorem spells_text (digest : Digest) (pretty : Bool) :
    Json.Spells (digest.text pretty).toList digest.toJson.toTokens := by
  cases pretty with
  | true => exact (Json.spelling_prettyAt digest.toJson 0).spells_line
  | false => exact (Json.spelling_compact digest.toJson).spells_line

theorem read_text {input : String} {document : Document} {tree : FileTree}
    (hdocument : DocumentAt tree cwd input document)
    (hdoubles : ∀ x, document.digest.HasLiteral (.double x) → (Json.Number.double x).ReadsBack)
    (pretty : Bool) :
    Json.read (document.digest.text pretty) = some document.digest.toJson := by
  obtain ⟨-, -, value, -, -, -, hread⟩ := hdocument
  exact Document.read_digest hread hdoubles (spells_text _ pretty)

/-- A working directory with a document and nothing else. -/
def harborTree : FileTree :=
  .directory [("harbor", .directory [("api.json", .file (some <|
    "\x7b\"openapi\":\"3.0\",\"components\":\x7b\"schemas\":" ++
      "\x7b\"Berth\":\x7b\"required\":[\"n\"]\x7d\x7d\x7d\x7d"))])]

/-- Flags that say what to read and where to write. -/
def harborFlags (compact : Bool) : GenerateFlags where
  input := some "api.json"
  output := some "out"
  compact := compact

/-- The digest of the document. -/
def harborDigest : Digest where
  operations := []
  schemas := [⟨"Berth", [], ["n"]⟩]

/-- The digest as it is written, line by line. -/
def harborLines : List String :=
  ["\x7b",
    "  \"operations\": [],",
    "  \"schemas\": [",
    "    \x7b",
    "      \"name\": \"Berth\",",
    "      \"properties\": [],",
    "      \"required\": [",
    "        \"n\"",
    "      ]",
    "    \x7d",
    "  ]",
    "\x7d",
    ""]

/-- The digest on one line. -/
def harborLine : String :=
  "\x7b\"operations\":[],\"schemas\":[\x7b\"name\":\"Berth\",\"properties\":[]," ++
    "\"required\":[\"n\"]\x7d]\x7d\n"

end ApiDigest.Session
