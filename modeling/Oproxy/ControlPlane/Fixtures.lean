import Oproxy.ControlPlane.MapLocalFiles

/-!
# Fixtures (`control_plane/policy.rs`)

The managed files of Map Local lie side by side in one directory.  A name is reduced to a single step before it is
joined to the directory, so that it can only be an entry of it; what that entry leads to is the entry itself as long
as it is no link.
-/

namespace Oproxy

open FileTree

namespace MapLocal

/-! ### Names -/

/-- The parts of a path as `Path::components` gives them. -/
inductive PathComponent where
  | rootDir | curDir | parentDir
  | normal (name : Str)
  deriving DecidableEq

/-- A part which is neither empty nor the directory itself. -/
def isStep (part : Str) : Bool := !part.isEmpty && decide (part ≠ ("." : Str))

/-- `Path::components`: empty steps are left out, and so are those to the directory itself, but for one in front. -/
def pathComponents (text : Str) : List PathComponent :=
  let parts := Str.split '/' text
  let front : List PathComponent :=
    if Str.startsWith text "/" then [.rootDir]
    else if parts.head? = some ("." : Str) then [.curDir]
    else []
  front ++ (parts.filter isStep).map fun part =>
    if part = (".." : Str) then .parentDir else .normal part

def sanitizeFixtureName (name : Str) : Option Str :=
  let trimmed := name.trim
  if trimmed.isEmpty then none
  else
    match pathComponents trimmed with
    | [.normal c] => some c
    | _ => none

/-! ### Writing, reading and deleting -/

namespace Files

/-- The tree with a file. -/
def write (files : Files) (loc : List Str) (body : Bytes) : Files where
  tree :=
    { node := fun q => if q = loc ∧ q ≠ [] then some .file else files.tree.node q
      root := by simp [files.tree.root] }
  contents q := if q = loc then body else files.contents q

/-- The tree without an entry. -/
def remove (files : Files) (loc : List Str) : Files where
  tree :=
    { node := fun q => if q = loc ∧ q ≠ [] then none else files.tree.node q
      root := by simp [files.tree.root] }
  contents := files.contents

/-- `create_dir_all`. -/
def createDirAll (files : Files) (dir : List (Component Str)) : Except Errno Unit × Files :=
  ((StoragePaths.createDirAll files.tree dir).1, { files with tree := (StoragePaths.createDirAll files.tree dir).2 })

/-- `fs::write`. -/
def writeFile (files : Files) (path : List (Component Str)) (body : Bytes) : Except Errno Unit × Files :=
  if StoragePaths.hasNul path then (.error .invalid, files)
  else
    match files.tree.openForWrite path with
    | .error e => (.error e, files)
    | .ok loc => (.ok (), files.write loc body)

/-- `fs::read`. -/
def readFile (files : Files) (path : List (Component Str)) : Except Errno Bytes :=
  if StoragePaths.hasNul path then .error .invalid
  else (files.tree.openForRead path).map files.contents

/-- `fs::remove_file`. -/
def removeFile (files : Files) (path : List (Component Str)) : Except Errno Unit × Files :=
  if StoragePaths.hasNul path then (.error .invalid, files)
  else
    match files.tree.unlink path with
    | .error e => (.error e, files)
    | .ok loc => (.ok (), files.remove loc)

end Files

/-! ### The handlers -/

inductive FixtureReply where
  | status (code : Nat)
  | error (code : Nat) (message : Str)
  | contents (bytes : Bytes)
  | created (name : Str) (size : Nat)
  | storageError (e : Errno)

def invalidName : Str := "invalid fixture name: must be a single file name with no path separators or '..'"

def getMapLocalFixture (files : Files) (dir : List (Component Str)) (name : Str) : FixtureReply :=
  match sanitizeFixtureName name with
  | none => .status 400
  | some safe =>
    match files.readFile (dir ++ [.normal safe]) with
    | .ok bytes => .contents bytes
    | .error .notFound => .status 404
    | .error e => .storageError e

def uploadMapLocalFixture (files : Files) (dir : List (Component Str)) (name : Str) (body : Bytes) :
    FixtureReply × Files :=
  match sanitizeFixtureName name with
  | none => (.error 400 invalidName, files)
  | some safe =>
    match files.createDirAll dir with
    | (.error e, files) => (.storageError e, files)
    | (.ok (), files) =>
      match files.writeFile (dir ++ [.normal safe]) body with
      | (.error e, files) => (.storageError e, files)
      | (.ok (), files) => (.created safe body.length, files)

def deleteMapLocalFixture (files : Files) (dir : List (Component Str)) (name : Str) : FixtureReply × Files :=
  match sanitizeFixtureName name with
  | none => (.status 400, files)
  | some safe =>
    match files.removeFile (dir ++ [.normal safe]) with
    | (.ok (), files) => (.status 200, files)
    | (.error .notFound, files) => (.status 404, files)
    | (.error e, files) => (.storageError e, files)

/-- A rule as it is submitted, with the text of a fixture. -/
structure SubmittedRule where
  rule : MapLocalRule
  inlineBody : Option Str

inductive MaterializeFixtureError where
  | invalidFileName
  | storage (e : Errno)

def MaterializeFixtureError.intoResponse : MaterializeFixtureError → FixtureReply
  | invalidFileName =>
    .error 422 "inline_body requires file_path to be a single fixture file name (no path separators or '..')"
  | storage e => .storageError e

def materializeInlineFixture (files : Files) (dir : List (Component Str)) (submitted : SubmittedRule) :
    Except MaterializeFixtureError SubmittedRule × Files :=
  match submitted.inlineBody with
  | none => (.ok submitted, files)
  | some body =>
    match sanitizeFixtureName submitted.rule.filePath with
    | none => (.error .invalidFileName, files)
    | some safe =>
      match files.createDirAll dir with
      | (.error e, files) => (.error (.storage e), files)
      | (.ok (), files) =>
        match files.writeFile (dir ++ [.normal safe]) (Str.toUtf8 body) with
        | (.error e, files) => (.error (.storage e), files)
        | (.ok (), files) => (.ok ⟨{ submitted.rule with filePath := safe }, none⟩, files)

/-! ### Containment -/

/-- An entry of the directory to which a path leads. -/
def ChildOf (tree : FileTree.Tree Str) (dir : List (Component Str)) (loc : List Str) : Prop :=
  ∃ root name, tree.resolve dir = .ok root ∧ loc = root ++ [name]

/-- What is at a location is not the same in two states. -/
def Differs (files files' : Files) (loc : List Str) : Prop :=
  files'.tree.node loc ≠ files.tree.node loc ∨ files'.contents loc ≠ files.contents loc

/-- No entry of the directory, which is made if it is missing, is a link. -/
def NoLinks (files : Files) (dir : List (Component Str)) : Prop :=
  ∀ root, (files.createDirAll dir).2.tree.resolve dir = .ok root → ∀ name target,
    files.tree.node (root ++ [name]) ≠ some (.link target)

example (files : Files) (dir : List (Component Str))
    (h : ∀ loc target, files.tree.node loc ≠ some (.link target)) : NoLinks files dir :=
  fun root _ name target => h (root ++ [name]) target

/-- The state has changed in an entry of the directory only, and where directories were missing on the way to it. -/
def ChangedInside (files : Files) (dir : List (Component Str)) (files' : Files) : Prop :=
  ∀ loc, Differs files files' loc →
    ChildOf (files.createDirAll dir).2.tree dir loc ∨ loc ∈ StoragePaths.missing files.tree dir

/-- Fixtures are entries of their directory, and all names but those of an entry are refused. -/
structure FixturesContained (files : Files) (dir : List (Component Str)) : Prop where
  accepted : ∀ name safe, sanitizeFixtureName name = some safe ↔
    safe ≠ [] ∧ safe ≠ "." ∧ safe ≠ ".." ∧
      ∃ parts, Str.split '/' name.trim = safe :: parts ∧ ∀ part ∈ parts, part = [] ∨ part = "."
  refused : ∀ name, sanitizeFixtureName name = none →
    getMapLocalFixture files dir name = .status 400 ∧
      (∀ body, uploadMapLocalFixture files dir name body = (.error 400 invalidName, files)) ∧
      deleteMapLocalFixture files dir name = (.status 400, files) ∧
      ∀ submitted : SubmittedRule, submitted.inlineBody ≠ none → submitted.rule.filePath = name →
        materializeInlineFixture files dir submitted = (.error .invalidFileName, files)
  got : ∀ name bytes, getMapLocalFixture files dir name = .contents bytes →
    ∃ loc, ChildOf files.tree dir loc ∧ files.tree.node loc = some .file ∧ bytes = files.contents loc
  uploaded : ∀ name body, ChangedInside files dir (uploadMapLocalFixture files dir name body).2
  deleted : ∀ name loc, Differs files (deleteMapLocalFixture files dir name).2 loc → ChildOf files.tree dir loc
  materialized : ∀ submitted, ChangedInside files dir (materializeInlineFixture files dir submitted).2

/-- Map Local serves and stores nothing outside its directories. -/
structure Contained (disk : Disk) (fixtures : List (Component Str)) : Prop where
  served : ∀ (text : Errno → Str) (dirs : Dirs) (filePath requestPath path : Str),
    (disk.fileSystem text).isDir (resolveMapLocalPath (disk.fileSystem text) dirs filePath) = true →
    pathForRequest (disk.fileSystem text) (resolveMapLocalPath (disk.fileSystem text) dirs filePath) requestPath =
      .ok (some path) →
    ∃ loc, path = render loc ∧ disk.FileBelow (resolveMapLocalPath (disk.fileSystem text) dirs filePath) loc
  answered : ∀ (text : Errno → Str) (regex : RegexEngine) (dirs : Dirs) (rules : List MapLocalRule)
    (ctx : RequestContext),
    (onRequest (disk.fileSystem text) regex dirs rules ctx).2 = .stopAndReturn →
    ∃ response, (onRequest (disk.fileSystem text) regex dirs rules ctx).1.mockResponse = some response ∧
      ((∃ message, response = mapLocalError message) ∨
        ∃ rule ∈ rules, rule.enabled = true ∧ ∃ path contents, response = fileResponse path contents ∧
          ((disk.fileSystem text).isDir (resolveMapLocalPath (disk.fileSystem text) dirs rule.filePath) = true →
            ∃ loc, path = render loc ∧ contents = disk.contents loc ∧
              disk.FileBelow (resolveMapLocalPath (disk.fileSystem text) dirs rule.filePath) loc))
  stored : NoLinks disk.toFiles fixtures → FixturesContained disk.toFiles fixtures

/-! ### Names -/

private theorem pathComponents_of_split {text first : Str} {rest : List Str}
    (hsplit : Str.split '/' text = first :: rest)
    (hfirst : first ≠ []) : pathComponents text =
      (if first = "." then [.curDir] else []) ++
        ((first :: rest).filter isStep).map fun part =>
          if part = (".." : Str) then .parentDir else .normal part := by
  have hrelative : Str.startsWith text "/" = false := by
    rw [← Bool.not_eq_true, Str.startsWith_iff]
    rintro ⟨r, rfl⟩
    have hhead := Str.headD_split '/' (("/" : Str) ++ r)
    rw [hsplit] at hhead
    exact hfirst hhead
  unfold pathComponents
  dsimp only
  rw [hrelative, hsplit, List.head?_cons, if_neg Bool.false_ne_true]
  simp only [Option.some.injEq]

private theorem pathComponents_of_split_nil {text : Str} {rest : List Str} (hsplit : Str.split '/' text = [] :: rest)
    (hne : text ≠ []) : ∃ others, pathComponents text = .rootDir :: others := by
  have habsolute : Str.startsWith text "/" = true := by
    have hhead := Str.headD_split '/' text
    rw [hsplit] at hhead
    cases text with
    | nil => exact absurd rfl hne
    | cons c text =>
      by_cases hc : c = '/'
      · rw [hc]
        exact Str.startsWith_iff.2 ⟨text, rfl⟩
      · rw [List.takeWhile_cons_of_pos (by simpa using hc)] at hhead
        cases hhead
  unfold pathComponents
  dsimp only
  rw [habsolute, if_pos rfl]
  exact ⟨_, rfl⟩

/-- A name is accepted which is one step, perhaps with slashes and dots behind it. -/
theorem sanitizeFixtureName_iff {name safe : Str} : sanitizeFixtureName name = some safe ↔
    safe ≠ [] ∧ safe ≠ "." ∧ safe ≠ ".." ∧
      ∃ parts, Str.split '/' name.trim = safe :: parts ∧ ∀ part ∈ parts, part = [] ∨ part = "." := by
  -- the name has one component, and a normal one
  have hsanitize : sanitizeFixtureName name = some safe ↔
      name.trim ≠ [] ∧ pathComponents name.trim = [.normal safe] := by
    unfold sanitizeFixtureName
    dsimp only
    by_cases hempty : name.trim.isEmpty = true
    · rw [if_pos hempty]
      refine iff_of_false (fun h => by cases h) fun h => h.1 (List.isEmpty_iff.1 hempty)
    · rw [if_neg hempty]
      have hne : name.trim ≠ [] := fun hnil => hempty (List.isEmpty_iff.2 hnil)
      split
      · rename_i c hcomponents
        rw [hcomponents, Option.some.injEq]
        exact ⟨fun h => ⟨hne, by rw [h]⟩, fun h => by cases h.2; rfl⟩
      · rename_i hother
        exact iff_of_false (fun h => by cases h) fun h => hother _ h.2
  rw [hsanitize]
  have hkeep : ∀ part : Str, isStep part = false ↔ part = [] ∨ part = "." := by
    intro part
    unfold isStep
    rw [Bool.and_eq_false_iff, Bool.not_eq_false', List.isEmpty_iff, decide_eq_false_iff_not, not_not]
  constructor
  · rintro ⟨hne, hcomponents⟩
    obtain ⟨first, rest, hsplit⟩ := List.exists_cons_of_ne_nil (List.splitOn_ne_nil '/' name.trim)
    change Str.split '/' name.trim = first :: rest at hsplit
    by_cases hfirst : first = []
    · -- an absolute path has the root as a component of its own
      subst hfirst
      obtain ⟨others, habsolute⟩ := pathComponents_of_split_nil hsplit hne
      rw [habsolute] at hcomponents
      cases hcomponents
    · rw [pathComponents_of_split hsplit hfirst] at hcomponents
      by_cases hdot : first = "."
      · rw [if_pos hdot] at hcomponents
        cases (List.cons.inj hcomponents).1
      · have hfirstKept : isStep first = true := by
          rw [← Bool.not_eq_false, hkeep]
          exact fun h => h.elim hfirst hdot
        rw [if_neg hdot, List.nil_append, List.filter_cons_of_pos hfirstKept, List.map_cons] at hcomponents
        obtain ⟨hhead, htail⟩ := List.cons.inj hcomponents
        by_cases hdots : first = ".."
        · rw [if_pos hdots] at hhead
          cases hhead
        · rw [if_neg hdots] at hhead
          cases hhead
          refine ⟨hfirst, hdot, hdots, rest, hsplit, fun part hpart => ?_⟩
          have hnone := List.filter_eq_nil_iff.1 (List.map_eq_nil_iff.1 htail) part hpart
          exact (hkeep part).1 (Bool.not_eq_true _ ▸ hnone)
  · rintro ⟨hne, hdot, hdots, parts, hsplit, hparts⟩
    refine ⟨?_, ?_⟩
    · intro hnil
      rw [hnil] at hsplit
      cases hsplit
      exact hne rfl
    · have hkept : isStep safe = true := by
        rw [← Bool.not_eq_false, hkeep]
        exact fun h => h.elim hne hdot
      have hrest : parts.filter isStep = [] := by
        rw [List.filter_eq_nil_iff]
        intro part hpart htrue
        rw [(hkeep part).2 (hparts part hpart)] at htrue
        cases htrue
      rw [pathComponents_of_split hsplit hne, if_neg hdot, List.filter_cons_of_pos hkept, hrest, List.map_cons,
        if_neg hdots]
      rfl

/-! ### The directory -/

variable {files : Files} {dir : List (Component Str)}

theorem createDirAll_files (files : Files) (dir : List (Component Str)) : (files.createDirAll dir).2 =
    { files with tree := files.tree.addDirs (StoragePaths.missing files.tree dir) } := by
  unfold Files.createDirAll
  rw [StoragePaths.createDirAll_tree]

/-- Making the directory changes what was missing on the way to it. -/
theorem changedInside_createDirAll (files : Files) (dir : List (Component Str)) :
    ChangedInside files dir (files.createDirAll dir).2 := by
  intro loc hdiffers
  rw [createDirAll_files] at hdiffers
  unfold Differs at hdiffers
  rcases hdiffers with hnode | hcontents
  · dsimp only at hnode
    rw [FileTree.Tree.node_addDirs] at hnode
    split at hnode
    · rename_i hmissing
      exact Or.inr hmissing
    · exact absurd rfl hnode
  · exact absurd rfl hcontents

/-- A directory which is there is found in its place after it has been made. -/
private theorem resolve_createDirAll {root : List Str} (h : files.tree.resolve dir = .ok root) :
    (files.createDirAll dir).2.tree.resolve dir = .ok root := by
  rw [createDirAll_files]
  dsimp only
  unfold FileTree.Tree.resolve at h ⊢
  cases hwalk : files.tree.walk false FileTree.maxLinks dir [] with
  | error e =>
    rw [hwalk] at h
    cases h
  | ok reached =>
    rw [FileTree.Tree.walk_addDirs (fun q hq => StoragePaths.node_of_mem_missing hq) hwalk, ← hwalk]
    exact h

/-- A link in the made directory was there before. -/
private theorem link_of_createDirAll {loc : List Str} {target : FileTree.Path Str}
    (h : (files.createDirAll dir).2.tree.node loc = some (.link target)) :
    files.tree.node loc = some (.link target) := by
  rw [createDirAll_files] at h
  dsimp only at h
  rw [FileTree.Tree.node_addDirs] at h
  split at h
  · cases h
  · exact h

/-- Writing in the made directory changes an entry of it. -/
theorem changedInside_writeFile (hlinks : NoLinks files dir) (safe : Str) (body : Bytes) :
    ChangedInside files dir ((files.createDirAll dir).2.writeFile (dir ++ [.normal safe]) body).2 := by
  have hmade := changedInside_createDirAll files dir
  unfold Files.writeFile
  split
  · exact hmade
  · split
    · exact hmade
    · rename_i loc hopen
      intro q hdiffers
      by_cases hq : q = loc
      · left
        obtain ⟨root, hroot, hsame | ⟨target, hlink⟩⟩ := FileTree.Tree.openForWrite_concat hopen
        · exact ⟨root, safe, hroot, hq.trans hsame⟩
        · exact absurd (link_of_createDirAll hlink) (hlinks root hroot safe target)
      · refine hmade q ?_
        unfold Differs Files.write at hdiffers
        dsimp only at hdiffers
        rw [if_neg fun h => hq h.1, if_neg hq] at hdiffers
        exact hdiffers

/-- What is read in the directory is an entry of it. -/
theorem childOf_of_readFile (hlinks : NoLinks files dir) {safe : Str} {bytes : Bytes}
    (h : files.readFile (dir ++ [.normal safe]) = .ok bytes) :
    ∃ loc, ChildOf files.tree dir loc ∧ files.tree.node loc = some .file ∧ bytes = files.contents loc := by
  unfold Files.readFile FileTree.Tree.openForRead at h
  split at h
  · cases h
  · split at h
    · rename_i loc hresolve
      split at h
      · cases h
      · rename_i hdir
        cases h
        refine ⟨loc, ?_, ?_, rfl⟩
        · obtain ⟨root, hroot, hsame | ⟨target, hlink⟩⟩ := FileTree.Tree.resolve_name hresolve
          · exact ⟨root, safe, hroot, hsame⟩
          · exact absurd hlink (hlinks root (resolve_createDirAll hroot) safe target)
        · rcases (FileTree.Tree.canonical_of_resolve hresolve).found with hnode | hnode
          · exact absurd (FileTree.Tree.isDirAt_iff.2 hnode) hdir
          · exact hnode
    · cases h

/-- What is deleted in the directory is an entry of it. -/
theorem childOf_of_removeFile {safe : Str} {loc : List Str}
    (h : Differs files (files.removeFile (dir ++ [.normal safe])).2 loc) : ChildOf files.tree dir loc := by
  unfold Files.removeFile at h
  split at h
  · exact absurd h (by simp [Differs])
  · split at h
    · exact absurd h (by simp [Differs])
    · rename_i gone hunlink
      obtain ⟨root, hroot, hgone⟩ := FileTree.Tree.unlink_concat hunlink
      by_cases hloc : loc = gone
      · exact ⟨root, safe, hroot, hloc.trans hgone⟩
      · unfold Differs Files.remove at h
        dsimp only at h
        rw [if_neg fun h => hloc h.1] at h
        exact absurd h (by simp)

/-! ### The handlers keep to the directory -/

theorem fixturesContained (hlinks : NoLinks files dir) : FixturesContained files dir where
  accepted name safe := sanitizeFixtureName_iff
  refused := by
    intro name hnone
    refine ⟨?_, fun body => ?_, ?_, fun submitted hinline hname => ?_⟩
    · unfold getMapLocalFixture
      rw [hnone]
    · unfold uploadMapLocalFixture
      rw [hnone]
    · unfold deleteMapLocalFixture
      rw [hnone]
    · obtain ⟨body, hbody⟩ := Option.ne_none_iff_exists'.1 hinline
      unfold materializeInlineFixture
      rw [hbody, hname, hnone]
  got := by
    intro name bytes hgot
    unfold getMapLocalFixture at hgot
    split at hgot
    · cases hgot
    · split at hgot
      · rename_i hread
        cases hgot
        exact childOf_of_readFile hlinks hread
      · cases hgot
      · cases hgot
  uploaded := by
    intro name body
    unfold uploadMapLocalFixture
    cases sanitizeFixtureName name with
    | none => exact fun loc hdiffers => absurd hdiffers (by simp [Differs])
    | some safe =>
      -- the directory is made before the file is written into it
      have hmade := changedInside_createDirAll files dir
      have hwritten := changedInside_writeFile hlinks safe body
      dsimp only
      rcases hcreate : files.createDirAll dir with ⟨_ | _, made⟩
      · rw [hcreate] at hmade
        exact hmade
      · rw [hcreate] at hwritten
        dsimp only at hwritten ⊢
        rcases hwrite : made.writeFile (dir ++ [.normal safe]) body with ⟨_ | _, written⟩
        · rw [hwrite] at hwritten ⊢
          exact hwritten
        · rw [hwrite] at hwritten ⊢
          exact hwritten
  deleted := by
    intro name loc hdiffers
    unfold deleteMapLocalFixture at hdiffers
    cases hsafe : sanitizeFixtureName name with
    | none =>
      rw [hsafe] at hdiffers
      exact absurd hdiffers (by simp [Differs])
    | some safe =>
      rw [hsafe] at hdiffers
      refine @childOf_of_removeFile files dir safe loc ?_
      dsimp only at hdiffers
      rcases hremove : files.removeFile (dir ++ [.normal safe]) with ⟨(e | _), files'⟩
      · rw [hremove] at hdiffers ⊢
        cases e <;> exact hdiffers
      · rw [hremove] at hdiffers ⊢
        exact hdiffers
  materialized := by
    intro submitted
    unfold materializeInlineFixture
    cases submitted.inlineBody with
    | none => exact fun loc hdiffers => absurd hdiffers (by simp [Differs])
    | some body =>
      dsimp only
      cases sanitizeFixtureName submitted.rule.filePath with
      | none => exact fun loc hdiffers => absurd hdiffers (by simp [Differs])
      | some safe =>
        have hmade := changedInside_createDirAll files dir
        have hwritten := changedInside_writeFile hlinks safe (Str.toUtf8 body)
        dsimp only
        rcases hcreate : files.createDirAll dir with ⟨_ | _, made⟩
        · rw [hcreate] at hmade
          exact hmade
        · rw [hcreate] at hwritten
          dsimp only at hwritten ⊢
          rcases hwrite : made.writeFile (dir ++ [.normal safe]) (Str.toUtf8 body) with ⟨_ | _, written⟩
          · rw [hwrite] at hwritten ⊢
            exact hwritten
          · rw [hwrite] at hwritten ⊢
            exact hwritten

theorem mapLocal_contained (disk : Disk) (fixtures : List (Component Str)) : Contained disk fixtures where
  served _ _ _ _ _ hdir h := fileBelow_of_pathForRequest hdir h
  answered := by
    intro text regex dirs rules ctx hstop
    obtain ⟨response, hresponse, herror | ⟨rule, hmem, henabled, path, contents, hpath, hread, hfile⟩⟩ :=
      answers_of_onRequest hstop
    · exact ⟨response, hresponse, Or.inl herror⟩
    · refine ⟨response, hresponse, Or.inr ⟨rule, hmem, henabled, path, contents, hfile, fun hdir => ?_⟩⟩
      obtain ⟨loc, rfl, hbelow⟩ := fileBelow_of_pathForRequest hdir hpath
      have hcanonical : FileTree.Tree.Canonical disk.tree loc := by
        obtain ⟨-, -, -, -, -, hcanonical, -⟩ := hbelow
        exact hcanonical
      exact ⟨loc, rfl, contents_of_read hcanonical hread, hbelow⟩
  stored := fixturesContained

/-! ### A disk with a link -/

/-- A site with a link which leads out of it, and a directory of fixtures. -/
private def siteEntries : List (List Str × Node Str) :=
  [(["srv"], .dir), (["srv", "site"], .dir), (["srv", "site", "index.html"], .file),
   (["srv", "site", "out"], .link ⟨true, [.normal "etc"]⟩), (["etc"], .dir), (["etc", "passwd"], .file),
   (["data"], .dir), (["data", "map-local"], .dir), (["data", "map-local", "hello.txt"], .file)]

private def siteNode (loc : List Str) : Option (Node Str) :=
  if loc = [] then some .dir else (siteEntries.find? fun e => e.1 = loc).map Prod.snd

private theorem mem_of_siteNode {loc : List Str} {node : Node Str} (hne : loc ≠ []) (h : siteNode loc = some node) :
    (loc, node) ∈ siteEntries := by
  unfold siteNode at h
  rw [if_neg hne] at h
  obtain ⟨e, hfound, rfl⟩ := Option.map_eq_some_iff.1 h
  have hloc : e.1 = loc := by simpa using List.find?_some hfound
  rw [← hloc]
  exact List.mem_of_find?_eq_some hfound

private theorem isName_of_siteNode {loc : List Str} (h : siteNode loc ≠ none) : ∀ name ∈ loc, IsName name := by
  by_cases hnil : loc = []
  · rw [hnil]
    exact List.forall_mem_nil _
  · obtain ⟨node, hnode⟩ := Option.ne_none_iff_exists'.1 h
    have hnames : ∀ e ∈ siteEntries, ∀ name ∈ e.1, name ≠ [] ∧ name ≠ "." ∧ name ≠ ".." ∧ '/' ∉ name ∧
        Char.ofNat 0 ∉ name := by decide +kernel
    intro name hname
    obtain ⟨hempty, hdot, hdots, hslash, hnul⟩ := hnames _ (mem_of_siteNode hnil hnode) name hname
    exact ⟨hempty, hdot, hdots, hslash, hnul⟩

private def siteDisk : Disk where
  tree := ⟨siteNode, rfl⟩
  contents loc := if loc = ["srv", "site", "index.html"] then Str.toUtf8 "<p>hello</p>" else []
  names _ h := isName_of_siteNode h
  cwd := []

private def siteFixtures : List (Component Str) := [.normal "data", .normal "map-local"]

private theorem noLinks_site : NoLinks siteDisk.toFiles siteFixtures := by
  intro root hroot name target hlink
  have hresolved : (siteDisk.toFiles.createDirAll siteFixtures).2.tree.resolve siteFixtures =
      .ok ["data", "map-local"] := by decide +kernel
  obtain rfl : (["data", "map-local"] : List Str) = root := Except.ok.inj (hresolved.symm.trans hroot)
  have hnode : siteNode ((["data", "map-local"] : List Str) ++ [name]) = some (.link target) := hlink
  have hmem := mem_of_siteNode (List.append_ne_nil_of_right_ne_nil _ (List.cons_ne_nil _ _)) hnode
  simp [siteEntries] at hmem

private def siteSystem : FileSystem := siteDisk.fileSystem fun _ => []

/-- The site is served, what its link leads to is not, and the fixtures stay in their directory. -/
theorem mapLocal_contained_site :
    pathForRequest siteSystem "/srv/site" "/index.html" = .ok (some "/srv/site/index.html") ∧
      (∃ loc, ("/srv/site/index.html" : Str) = render loc ∧ siteDisk.FileBelow "/srv/site" loc) ∧
      pathForRequest siteSystem "/srv/site" "//out/passwd" = .ok none ∧
      FixturesContained siteDisk.toFiles siteFixtures := by
  have hcontained := mapLocal_contained siteDisk siteFixtures
  have hserved : pathForRequest siteSystem "/srv/site" "/index.html" = .ok (some "/srv/site/index.html") := by
    decide +kernel
  have hrefused : pathForRequest siteSystem "/srv/site" "//out/passwd" = .ok none := by decide +kernel
  refine ⟨hserved, ?_, hrefused, hcontained.stored noLinks_site⟩
  exact hcontained.served (fun _ => []) ⟨none, none⟩ "/srv/site" "/index.html" "/srv/site/index.html"
    (by decide +kernel) hserved

end MapLocal

end Oproxy
