import Oproxy.Lib.FileTree
import Oproxy.Lib.Text

/-!
# Storage paths (`control_plane/storage_paths.rs`)

A path which the admin API asks for is resolved to a file below the storage directory.  The directory of the file is
made before it is known to lie there, and whether the file exists is asked of what a link leads to.
-/

namespace Oproxy

open FileTree

namespace StoragePaths

/-! ### Paths -/

/-- The steps of a path; a slash at its end is a step to the directory itself. -/
def parsePath (text : Str) : Path Str where
  absolute := Str.startsWith text "/"
  comps :=
    ((Str.split '/' text).filter fun part => !part.isEmpty).map (fun part =>
      if part = ("." : Str) then .curDir else if part = (".." : Str) then .parentDir else .normal part) ++
      (if text.getLast? = some '/' then [.curDir] else [])

/-- Whether there is no step upwards. -/
def isSafeRelativePath (path : Path Str) : Bool :=
  !path.comps.isEmpty && path.comps.all fun c => c ≠ .parentDir

/-- The steps without those which stay. -/
def components (comps : List (Component Str)) : List (Component Str) := comps.filter (· ≠ .curDir)

def fileName (comps : List (Component Str)) : Option Str :=
  match (components comps).getLast? with
  | some (.normal name) => some name
  | _ => none

def parent (comps : List (Component Str)) : List (Component Str) := (components comps).dropLast

/-- The path of a location. -/
def pathTo (loc : List Str) : List (Component Str) := loc.map .normal

/-! ### System calls -/

/-- The system takes no path with a NUL in it. -/
def hasNul (comps : List (Component Str)) : Bool :=
  comps.any fun
    | .normal name => name.any fun c => c = Char.ofNat 0
    | _ => false

def createDirAll (fs : FileTree.Tree Str) (comps : List (Component Str)) : Except Errno Unit × FileTree.Tree Str :=
  if hasNul comps then (.error .invalid, fs) else fs.createDirAll comps

def canonicalize (fs : FileTree.Tree Str) (comps : List (Component Str)) : Except Errno (List Str) :=
  if hasNul comps then .error .invalid else fs.resolve comps

def pathExists (fs : FileTree.Tree Str) (comps : List (Component Str)) : Bool :=
  match canonicalize fs comps with
  | .ok _ => true
  | .error _ => false

def isFile (fs : FileTree.Tree Str) (comps : List (Component Str)) : Bool := !hasNul comps && fs.isFile comps

/-- The location of the file which is written. -/
def openForWrite (fs : FileTree.Tree Str) (file : List Str) : Except Errno (List Str) :=
  if hasNul (pathTo file) then .error .invalid else fs.openForWrite (pathTo file)

/-- The location of the file which is read. -/
def openForRead (fs : FileTree.Tree Str) (file : List Str) : Except Errno (List Str) :=
  if hasNul (pathTo file) then .error .invalid else fs.openForRead (pathTo file)

/-! ### The two functions -/

inductive Failure where
  | createStorage (e : Errno)
  | resolveStorage (e : Errno)
  | pathRequired
  | outside
  | noFileName
  | createParent (e : Errno)
  | resolveParent (e : Errno)
  | resolveFile (e : Errno)
  | notAFile
  deriving DecidableEq

/-- The text of a failure, with the text of the system for an error of its own. -/
def Failure.message (text : Errno → Str) : Failure → Str
  | createStorage e => ("failed to create storage directory: " : Str) ++ text e
  | resolveStorage e => ("failed to resolve storage directory: " : Str) ++ text e
  | pathRequired => "path is required"
  | outside => "path must stay inside storage directory"
  | noFileName => "path must include a file name"
  | createParent e => ("failed to create parent directory: " : Str) ++ text e
  | resolveParent e => ("failed to resolve parent directory: " : Str) ++ text e
  | resolveFile e => ("failed to resolve file: " : Str) ++ text e
  | notAFile => "path must reference a file"

/-- The storage directory, made if it is missing. -/
def storageRoot (fs : FileTree.Tree Str) (storage : List (Component Str)) :
    Except Failure (List Str) × FileTree.Tree Str :=
  match createDirAll fs storage with
  | (.error e, fs) => (.error (.createStorage e), fs)
  | (.ok (), fs) =>
    match canonicalize fs storage with
    | .error e => (.error (.resolveStorage e), fs)
    | .ok root => (.ok root, fs)

/-- The file which is asked for: an absolute path as it is, a relative one below the storage directory. -/
def candidate (root : List Str) (requested : Str) : Except Failure (List (Component Str)) :=
  let path := parsePath requested
  if requested.isEmpty then .error .pathRequired
  else if path.absolute then .ok path.comps
  else if isSafeRelativePath path then .ok (pathTo root ++ path.comps)
  else .error .outside

/-- The end of `resolve_storage_file_for_write`, where the parent directory is known. -/
def checkFile (fs : FileTree.Tree Str) (root parent : List Str) (name : Str) : Except Failure (List Str) :=
  if !root.isPrefixOf parent then .error .outside
  else
    let file := parent ++ [name]
    if pathExists fs (pathTo file) then
      match canonicalize fs (pathTo file) with
      | .error e => .error (.resolveFile e)
      | .ok resolved =>
        if !root.isPrefixOf resolved || !isFile fs (pathTo resolved) then .error .outside else .ok file
    else .ok file

def resolveStorageFileForWrite (fs : FileTree.Tree Str) (storage : List (Component Str)) (requested : Str) :
    Except Failure (List Str) × FileTree.Tree Str :=
  match storageRoot fs storage with
  | (.error e, fs) => (.error e, fs)
  | (.ok root, fs) =>
    match candidate root requested with
    | .error e => (.error e, fs)
    | .ok candidate =>
      match fileName candidate with
      | none => (.error .noFileName, fs)
      | some name =>
        match createDirAll fs (parent candidate) with
        | (.error e, fs) => (.error (.createParent e), fs)
        | (.ok (), fs) =>
          match canonicalize fs (parent candidate) with
          | .error e => (.error (.resolveParent e), fs)
          | .ok parent => (checkFile fs root parent name, fs)

def resolveStorageFileForRead (fs : FileTree.Tree Str) (storage : List (Component Str)) (requested : Str) :
    Except Failure (List Str) × FileTree.Tree Str :=
  match storageRoot fs storage with
  | (.error e, fs) => (.error e, fs)
  | (.ok root, fs) =>
    match candidate root requested with
    | .error e => (.error e, fs)
    | .ok candidate =>
      match canonicalize fs candidate with
      | .error e => (.error (.resolveFile e), fs)
      | .ok file =>
        if !root.isPrefixOf file then (.error .outside, fs)
        else if !isFile fs (pathTo file) then (.error .notAFile, fs)
        else (.ok file, fs)

/-! ### Which directories are made -/

/-- The directories which are missing on the way. -/
def missing (fs : FileTree.Tree Str) (comps : List (Component Str)) : List (List Str) :=
  if hasNul comps then [] else fs.missingDirs comps

/-- The directories which a request to write makes: those missing on the way to the storage directory, and those
missing on the way to the file, where the request names one. -/
def made (fs : FileTree.Tree Str) (storage : List (Component Str)) (requested : Str) : List (List Str) :=
  missing fs storage ++
    match storageRoot fs storage with
    | (.ok root, fs') =>
      match candidate root requested with
      | .ok candidate => if (fileName candidate).isSome then missing fs' (parent candidate) else []
      | .error _ => []
    | (.error _, _) => []

theorem createDirAll_tree (fs : FileTree.Tree Str) (comps : List (Component Str)) :
    (createDirAll fs comps).2 = fs.addDirs (missing fs comps) := by
  unfold createDirAll missing
  split
  · exact (FileTree.Tree.addDirs_nil fs).symm
  · exact FileTree.Tree.createDirAll_tree fs comps

theorem node_of_mem_missing {fs : FileTree.Tree Str} {comps : List (Component Str)} {q : List Str}
    (h : q ∈ missing fs comps) : fs.node q = none := by
  unfold missing at h
  split at h
  · cases h
  · exact FileTree.Tree.node_of_mem_missingDirs h

theorem storageRoot_tree (fs : FileTree.Tree Str) (storage : List (Component Str)) :
    (storageRoot fs storage).2 = fs.addDirs (missing fs storage) := by
  have htree := createDirAll_tree fs storage
  unfold storageRoot
  rcases hcreate : createDirAll fs storage with ⟨_ | _, fs'⟩
  · rw [hcreate] at htree
    exact htree
  · rw [hcreate] at htree
    dsimp only at htree ⊢
    split <;> exact htree

/-- The storage directory is a directory. -/
theorem isDirAt_storageRoot {fs fs' : FileTree.Tree Str} {storage : List (Component Str)} {root : List Str}
    (h : storageRoot fs storage = (.ok root, fs')) : fs'.isDirAt root = true := by
  unfold storageRoot at h
  rcases hcreate : createDirAll fs storage with ⟨_ | _, fs₁⟩
  · rw [hcreate] at h
    cases h
  · rw [hcreate] at h
    dsimp only at h
    split at h
    · cases h
    · rename_i root' hroot
      cases h
      unfold canonicalize at hroot
      unfold createDirAll at hcreate
      split at hroot
      · cases hroot
      · rename_i hnul
        rw [if_neg hnul] at hcreate
        have hdir := @FileTree.Tree.isDir_of_createDirAll _ fs _ storage (congrArg Prod.fst hcreate)
        rw [hcreate] at hdir
        unfold FileTree.Tree.isDir at hdir
        rw [hroot] at hdir
        exact hdir

theorem write_tree (fs : FileTree.Tree Str) (storage : List (Component Str)) (requested : Str) :
    (resolveStorageFileForWrite fs storage requested).2 = fs.addDirs (made fs storage requested) := by
  have hroot := storageRoot_tree fs storage
  unfold resolveStorageFileForWrite made
  rcases hstorage : storageRoot fs storage with ⟨_ | root, fs₁⟩
  · rw [hstorage] at hroot
    dsimp only at hroot ⊢
    rw [List.append_nil]
    exact hroot
  · rw [hstorage] at hroot
    dsimp only at hroot ⊢
    cases candidate root requested with
    | error e =>
      dsimp only
      rw [List.append_nil]
      exact hroot
    | ok candidate =>
      dsimp only
      cases fileName candidate with
      | none =>
        dsimp only [Option.isSome]
        rw [if_neg Bool.false_ne_true, List.append_nil]
        exact hroot
      | some name =>
        have htree := createDirAll_tree fs₁ (parent candidate)
        dsimp only [Option.isSome]
        rw [if_pos rfl, FileTree.Tree.addDirs_append, ← hroot, ← htree]
        rcases createDirAll fs₁ (parent candidate) with ⟨_ | _, fs₂⟩
        · rfl
        · dsimp only
          split <;> rfl

theorem read_tree (fs : FileTree.Tree Str) (storage : List (Component Str)) (requested : Str) :
    (resolveStorageFileForRead fs storage requested).2 = fs.addDirs (missing fs storage) := by
  have hroot := storageRoot_tree fs storage
  unfold resolveStorageFileForRead
  rcases hstorage : storageRoot fs storage with ⟨_ | root, fs₁⟩
  · rw [hstorage] at hroot
    exact hroot
  · rw [hstorage] at hroot
    dsimp only at hroot ⊢
    cases candidate root requested with
    | error e => exact hroot
    | ok candidate =>
      dsimp only
      cases canonicalize fs₁ candidate with
      | error e => exact hroot
      | ok file =>
        dsimp only
        split
        · exact hroot
        · split <;> exact hroot

/-- What is made was not there before. -/
theorem node_of_mem_made {fs : FileTree.Tree Str} {storage : List (Component Str)} {requested : Str} {q : List Str}
    (h : q ∈ made fs storage requested) : fs.node q = none := by
  have hroot := storageRoot_tree fs storage
  unfold made at h
  rcases List.mem_append.1 h with hold | hnew
  · exact node_of_mem_missing hold
  · rcases hstorage : storageRoot fs storage with ⟨_ | root, fs₁⟩
    · rw [hstorage] at hnew
      cases hnew
    · rw [hstorage] at hnew hroot
      dsimp only at hnew hroot
      split at hnew
      · split at hnew
        · have hnone := node_of_mem_missing hnew
          rw [hroot, FileTree.Tree.node_addDirs] at hnone
          split at hnone
          · cases hnone
          · exact hnone
        · cases hnew
      · cases hnew

/-- A tree with more directories differs where they have been made. -/
private theorem changed_iff {fs : FileTree.Tree Str} {locs : List (List Str)} (h : ∀ q ∈ locs, fs.node q = none)
    (q : List Str) : (fs.addDirs locs).node q ≠ fs.node q ↔ q ∈ locs := by
  rw [FileTree.Tree.node_addDirs]
  by_cases hq : q ∈ locs
  · rw [if_pos hq, h q hq]
    simp [hq]
  · rw [if_neg hq]
    simp [hq]

/-! ### Containment -/

section

variable (fs : FileTree.Tree Str) (storage : List (Component Str)) (requested : Str)

/-- A location in the storage directory, the directory itself included. -/
def Within (loc : List Str) : Prop := ∃ root, (storageRoot fs storage).1 = .ok root ∧ root <+: loc

/-- A location below the storage directory. -/
def Below (loc : List Str) : Prop := ∃ root, (storageRoot fs storage).1 = .ok root ∧ root <+: loc ∧ loc ≠ root

/-- What is accepted is written and read below the storage directory, and what is refused has changed nothing outside
it. -/
structure Contained : Prop where
  written : ∀ file, (resolveStorageFileForWrite fs storage requested).1 = .ok file → ∀ loc,
    openForWrite (resolveStorageFileForWrite fs storage requested).2 file = .ok loc → Below fs storage loc
  read : ∀ file, (resolveStorageFileForRead fs storage requested).1 = .ok file → ∀ loc,
    openForRead (resolveStorageFileForRead fs storage requested).2 file = .ok loc → Below fs storage loc
  writeRefused : ∀ e, (resolveStorageFileForWrite fs storage requested).1 = .error e → ∀ loc,
    (resolveStorageFileForWrite fs storage requested).2.node loc ≠ fs.node loc → Within fs storage loc
  readRefused : ∀ e, (resolveStorageFileForRead fs storage requested).1 = .error e → ∀ loc,
    (resolveStorageFileForRead fs storage requested).2.node loc ≠ fs.node loc → Within fs storage loc

/-- The files with the directories which a request to write makes. -/
def afterwards : FileTree.Tree Str := fs.addDirs (made fs storage requested)

/-- A request names a file in a directory, the way to which can be made. -/
structure Names (root dir : List Str) (name : Str) : Prop where
  directory : (storageRoot fs storage).1 = .ok root
  path : ∃ path, candidate root requested = .ok path ∧ fileName path = some name ∧
    (createDirAll (fs.addDirs (missing fs storage)) (parent path)).1 = .ok () ∧
    canonicalize (afterwards fs storage requested) (parent path) = .ok dir

/-- What a request to write names is a file in the storage directory, or is not there yet. -/
def Writable : Prop :=
  ∃ root dir name, Names fs storage requested root dir name ∧ root <+: dir ∧
    ∀ file, canonicalize (afterwards fs storage requested) (pathTo (dir ++ [name])) = .ok file →
      root <+: file ∧ isFile (afterwards fs storage requested) (pathTo file) = true

/-- What a request to read names is a file in the storage directory. -/
def Readable : Prop :=
  ∃ root path file, (storageRoot fs storage).1 = .ok root ∧ candidate root requested = .ok path ∧
    canonicalize (fs.addDirs (missing fs storage)) path = .ok file ∧ root <+: file ∧
    isFile (fs.addDirs (missing fs storage)) (pathTo file) = true

/-- The condition: a name in the storage directory is no link which leads nowhere yet and outside, and nothing outside
is missing on the way where the request is not for a file in it. -/
structure NothingLeadsOut : Prop where
  dangling : ∀ root dir name target, Names fs storage requested root dir name → root <+: dir →
    (afterwards fs storage requested).node (dir ++ [name]) = some (.link target) →
    pathExists (afterwards fs storage requested) (pathTo (dir ++ [name])) = false → ∀ loc,
    openForWrite (afterwards fs storage requested) (dir ++ [name]) = .ok loc → Below fs storage loc
  unwritable : ¬ Writable fs storage requested → ∀ loc ∈ made fs storage requested, Within fs storage loc
  unreadable : ¬ Readable fs storage requested → ∀ loc ∈ missing fs storage, Within fs storage loc

end

/-! ### When paths are contained -/

variable {fs : FileTree.Tree Str} {storage : List (Component Str)} {requested : Str}

private theorem pathTo_concat (loc : List Str) (name : Str) :
    pathTo (loc ++ [name]) = pathTo loc ++ [.normal name] := by
  unfold pathTo
  rw [List.map_append]
  rfl

private theorem resolve_of_canonicalize {comps : List (Component Str)} {loc : List Str}
    (h : canonicalize fs comps = .ok loc) : fs.resolve comps = .ok loc := by
  unfold canonicalize at h
  split at h
  · cases h
  · exact h

private theorem isFile_canonical {loc : List Str} (h : FileTree.Tree.Canonical fs loc)
    (hfile : isFile fs (pathTo loc) = true) : fs.node loc = some .file := by
  unfold isFile at hfile
  rw [Bool.and_eq_true] at hfile
  exact FileTree.Tree.isFile_of_canonical h hfile.2

/-- An accepted file has its name in a directory in the storage directory; if it exists, it is a file there. -/
private theorem checkFile_iff {root dir file : List Str} {name : Str} :
    checkFile fs root dir name = .ok file ↔ file = dir ++ [name] ∧ root <+: dir ∧
      ∀ resolved, canonicalize fs (pathTo (dir ++ [name])) = .ok resolved →
        root <+: resolved ∧ isFile fs (pathTo resolved) = true := by
  unfold checkFile
  by_cases hinside : root.isPrefixOf dir = true
  · simp only [hinside, Bool.not_true, Bool.false_eq_true, if_false]
    have hunder := List.isPrefixOf_iff_prefix.1 hinside
    cases hresolved : canonicalize fs (pathTo (dir ++ [name])) with
    | error e =>
      have hmissing : pathExists fs (pathTo (dir ++ [name])) = false := by
        unfold pathExists
        rw [hresolved]
      rw [if_neg (by rw [hmissing]; exact Bool.false_ne_true)]
      constructor
      · intro h
        cases h
        exact ⟨rfl, hunder, nofun⟩
      · rintro ⟨rfl, -, -⟩
        rfl
    | ok resolved =>
      have hexists : pathExists fs (pathTo (dir ++ [name])) = true := by
        unfold pathExists
        rw [hresolved]
      rw [if_pos hexists]
      dsimp only
      by_cases hfile : (!root.isPrefixOf resolved || !isFile fs (pathTo resolved)) = true
      · rw [if_pos hfile]
        refine iff_of_false (by rintro ⟨⟩) ?_
        rintro ⟨-, -, hchecked⟩
        obtain ⟨hunder, hregular⟩ := hchecked resolved rfl
        rw [List.isPrefixOf_iff_prefix.2 hunder, hregular] at hfile
        cases hfile
      · rw [if_neg hfile]
        simp only [Bool.or_eq_true, Bool.not_eq_true', not_or, Bool.not_eq_false] at hfile
        constructor
        · intro h
          cases h
          refine ⟨rfl, hunder, fun resolved' heq => ?_⟩
          cases heq
          exact ⟨List.isPrefixOf_iff_prefix.1 hfile.1, hfile.2⟩
        · rintro ⟨rfl, -, -⟩
          rfl
  · simp only [hinside, Bool.not_false, if_true]
    refine iff_of_false (by rintro ⟨⟩) ?_
    rintro ⟨-, hunder, -⟩
    exact hinside (List.isPrefixOf_iff_prefix.2 hunder)

/-- What is accepted is what the request names, if it stands the checks. -/
theorem write_ok_iff {file : List Str} :
    (resolveStorageFileForWrite fs storage requested).1 = .ok file ↔
      ∃ root dir name, Names fs storage requested root dir name ∧
        checkFile (afterwards fs storage requested) root dir name = .ok file := by
  have hfirst := storageRoot_tree fs storage
  have hafter : (resolveStorageFileForWrite fs storage requested).2 = afterwards fs storage requested :=
    write_tree fs storage requested
  unfold resolveStorageFileForWrite at hafter ⊢
  rcases hstorage : storageRoot fs storage with ⟨e | root, fs₁⟩
  · refine iff_of_false nofun ?_
    rintro ⟨root', dir, name, hnames, -⟩
    exact absurd (hnames.directory.symm.trans (congrArg Prod.fst hstorage)) nofun
  · -- a name is there only for this storage directory
    have hnamed : ∀ {root' dir : List Str} {name : Str}, Names fs storage requested root' dir name → root' = root :=
      fun hnames => Except.ok.inj (hnames.directory.symm.trans (congrArg Prod.fst hstorage))
    rw [hstorage] at hfirst hafter
    dsimp only at hfirst hafter ⊢
    cases hcandidate : candidate root requested with
    | error e =>
      refine iff_of_false nofun ?_
      rintro ⟨root', dir, name, hnames, -⟩
      obtain rfl := hnamed hnames
      obtain ⟨path, hpath, -⟩ := hnames.path
      rw [hcandidate] at hpath
      cases hpath
    | ok path =>
      have hpath : ∀ {root' dir : List Str} {name : Str}, Names fs storage requested root' dir name →
          fileName path = some name ∧ (createDirAll fs₁ (parent path)).1 = .ok () ∧
            canonicalize (afterwards fs storage requested) (parent path) = .ok dir := by
        intro root' dir name hnames
        obtain rfl := hnamed hnames
        obtain ⟨path', hpath', hrest⟩ := hnames.path
        rw [hcandidate] at hpath'
        cases hpath'
        rw [hfirst]
        exact hrest
      rw [hcandidate] at hafter
      dsimp only at hafter ⊢
      cases hname : fileName path with
      | none =>
        refine iff_of_false nofun ?_
        rintro ⟨root', dir, name, hnames, -⟩
        have hsome := (hpath hnames).1
        rw [hname] at hsome
        cases hsome
      | some name =>
        rw [hname] at hafter
        dsimp only at hafter ⊢
        rcases hcreate : createDirAll fs₁ (parent path) with ⟨e | _, fs₂⟩
        · refine iff_of_false nofun ?_
          rintro ⟨root', dir, name', hnames, -⟩
          have hmade := (hpath hnames).2.1
          rw [hcreate] at hmade
          cases hmade
        · rw [hcreate] at hafter
          dsimp only at hafter ⊢
          cases hdir : canonicalize fs₂ (parent path) with
          | error e =>
            rw [hdir] at hafter
            refine iff_of_false nofun ?_
            rintro ⟨root', dir, name', hnames, -⟩
            have hfound := (hpath hnames).2.2
            rw [← hafter, hdir] at hfound
            cases hfound
          | ok dir =>
            rw [hdir] at hafter
            dsimp only at hafter ⊢
            rw [hafter] at hdir ⊢
            have hnames : Names fs storage requested root dir name := by
              refine ⟨congrArg Prod.fst hstorage, path, hcandidate, hname, ?_, hdir⟩
              rw [← hfirst, hcreate]
            constructor
            · exact fun hchecked => ⟨root, dir, name, hnames, hchecked⟩
            · rintro ⟨root', dir', name', hnames', hchecked⟩
              obtain rfl := hnamed hnames'
              obtain ⟨hname', -, hdir'⟩ := hpath hnames'
              rw [hname] at hname'
              rw [hdir] at hdir'
              cases hname'
              cases hdir'
              exact hchecked

theorem writable_iff :
    Writable fs storage requested ↔ ∃ file, (resolveStorageFileForWrite fs storage requested).1 = .ok file := by
  simp only [write_ok_iff, checkFile_iff]
  constructor
  · rintro ⟨root, dir, name, hnames, hunder, hchecked⟩
    exact ⟨_, root, dir, name, hnames, rfl, hunder, hchecked⟩
  · rintro ⟨file, root, dir, name, hnames, -, hunder, hchecked⟩
    exact ⟨root, dir, name, hnames, hunder, hchecked⟩

theorem readable_iff :
    Readable fs storage requested ↔ ∃ file, (resolveStorageFileForRead fs storage requested).1 = .ok file := by
  have hfirst := storageRoot_tree fs storage
  unfold Readable resolveStorageFileForRead
  rw [← hfirst]
  rcases hstorage : storageRoot fs storage with ⟨e | root, fs₁⟩
  · simp
  · dsimp only
    cases hcandidate : candidate root requested with
    | error e =>
      simp [hcandidate]
    | ok path =>
      dsimp only
      cases hfile : canonicalize fs₁ path with
      | error e => simp [hcandidate, hfile]
      | ok file =>
        by_cases hinside : root.isPrefixOf file = true
        · by_cases hregular : isFile fs₁ (pathTo file) = true
          · simp [hcandidate, hfile, hinside, hregular, List.isPrefixOf_iff_prefix.1 hinside]
          · simp [hcandidate, hfile, hinside, hregular]
        · have hunder : ¬ root <+: file := fun h => hinside (List.isPrefixOf_iff_prefix.2 h)
          simp [hcandidate, hfile, hinside, hunder]

/-- The storage directory is a directory after the request, too. -/
private theorem node_root {root : List Str} {fs₁ : FileTree.Tree Str} (h : storageRoot fs storage = (.ok root, fs₁)) :
    (fs.addDirs (made fs storage requested)).node root = some .dir := by
  have hdir := FileTree.Tree.isDirAt_iff.1 (isDirAt_storageRoot h)
  have hroot := storageRoot_tree fs storage
  rw [h] at hroot
  dsimp only at hroot
  rw [hroot, FileTree.Tree.node_addDirs] at hdir
  rw [FileTree.Tree.node_addDirs]
  split
  · rfl
  · rename_i hnot
    rw [if_neg] at hdir
    · exact hdir
    · exact fun hmem => hnot (List.mem_append_left _ hmem)

private theorem below_of_file {root loc : List Str} {fs₁ fs₂ : FileTree.Tree Str}
    (hroot : storageRoot fs storage = (.ok root, fs₁)) (hdir : fs₂.node root = some .dir) (hunder : root <+: loc)
    (hfile : fs₂.node loc = some .file) : Below fs storage loc := by
  refine ⟨root, congrArg Prod.fst hroot, hunder, ?_⟩
  intro heq
  rw [heq, hdir] at hfile
  cases hfile

/-- What is written of an accepted file: the file itself, or what a link in its place leads to. -/
theorem written_below {root dir : List Str} {name : Str} {loc : List Str}
    (hnames : Names fs storage requested root dir name) (hunder : root <+: dir)
    (hchecked : ∀ file, canonicalize (afterwards fs storage requested) (pathTo (dir ++ [name])) = .ok file →
      root <+: file ∧ isFile (afterwards fs storage requested) (pathTo file) = true)
    (hopen : openForWrite (afterwards fs storage requested) (dir ++ [name]) = .ok loc) :
    Below fs storage loc ∨
      (∃ target, (afterwards fs storage requested).node (dir ++ [name]) = some (.link target)) ∧
        pathExists (afterwards fs storage requested) (pathTo (dir ++ [name])) = false := by
  obtain ⟨path, -, -, -, hdir⟩ := hnames.path
  have hcanonical := FileTree.Tree.canonical_of_resolve (resolve_of_canonicalize hdir)
  obtain ⟨fs₁, hroot⟩ : ∃ fs₁, storageRoot fs storage = (.ok root, fs₁) := ⟨_, Prod.ext hnames.directory rfl⟩
  have hrootDir : (afterwards fs storage requested).node root = some .dir := node_root hroot
  unfold openForWrite at hopen
  split at hopen
  · cases hopen
  · rename_i hnul
    cases hresolve : canonicalize (afterwards fs storage requested) (pathTo (dir ++ [name])) with
    | ok resolved =>
      -- an existing file has been looked at through its links
      left
      obtain ⟨hinside, hfile⟩ := hchecked resolved hresolve
      have hplain := resolve_of_canonicalize hresolve
      have hsame := FileTree.Tree.openForWrite_of_resolve hplain hopen
      rw [hsame]
      exact below_of_file hroot hrootDir hinside (isFile_canonical (FileTree.Tree.canonical_of_resolve hplain) hfile)
    | error e =>
      rw [pathTo_concat] at hopen
      rcases FileTree.Tree.openForWrite_child hcanonical hopen with hsame | hlink
      · left
        rw [hsame]
        refine ⟨root, hnames.directory, hunder.trans (List.prefix_append dir [name]), ?_⟩
        intro heq
        have hlength := hunder.length_le
        rw [← heq, List.length_append, List.length_singleton] at hlength
        omega
      · right
        refine ⟨hlink, ?_⟩
        unfold pathExists
        rw [hresolve]

/-- What is read of an accepted file. -/
theorem read_below {file loc : List Str} (hok : (resolveStorageFileForRead fs storage requested).1 = .ok file)
    (hopen : openForRead (resolveStorageFileForRead fs storage requested).2 file = .ok loc) :
    Below fs storage loc := by
  unfold resolveStorageFileForRead at hok hopen
  rcases hstorage : storageRoot fs storage with ⟨_ | root, fs₁⟩
  · rw [hstorage] at hok
    cases hok
  · rw [hstorage] at hok hopen
    dsimp only at hok hopen
    cases hcandidate : candidate root requested with
    | error e =>
      rw [hcandidate] at hok
      cases hok
    | ok candidate =>
      rw [hcandidate] at hok hopen
      dsimp only at hok hopen
      cases hresolve : canonicalize fs₁ candidate with
      | error e =>
        rw [hresolve] at hok
        cases hok
      | ok found =>
        rw [hresolve] at hok hopen
        dsimp only at hok hopen
        split at hok
        · cases hok
        · rename_i hinside
          split at hok
          · cases hok
          · rename_i hfile
            rw [if_neg hinside, if_neg hfile] at hopen
            cases hok
            simp only [Bool.not_eq_true', Bool.not_eq_false] at hinside hfile
            have hcanonical := FileTree.Tree.canonical_of_resolve (resolve_of_canonicalize hresolve)
            unfold openForRead at hopen
            split at hopen
            · cases hopen
            · rw [FileTree.Tree.openForRead_of_canonical hcanonical hopen]
              exact below_of_file hstorage (FileTree.Tree.isDirAt_iff.1 (isDirAt_storageRoot hstorage))
                (List.isPrefixOf_iff_prefix.1 hinside) (isFile_canonical hcanonical hfile)

theorem contained_iff (fs : FileTree.Tree Str) (storage : List (Component Str)) (requested : Str) :
    Contained fs storage requested ↔ NothingLeadsOut fs storage requested := by
  have hwrite := write_tree fs storage requested
  have hread := read_tree fs storage requested
  have hmade := fun q => changed_iff (fun q hq => @node_of_mem_made fs storage requested q hq) q
  have hmissing := fun q => changed_iff (fun q hq => @node_of_mem_missing fs storage q hq) q
  constructor
  · intro h
    refine ⟨?_, ?_, ?_⟩
    · -- a dangling link under the root is written through, and its target made
      intro root dir name target hnames hunder _ hmissing loc hopen
      have hok : (resolveStorageFileForWrite fs storage requested).1 = .ok (dir ++ [name]) := by
        refine write_ok_iff.2 ⟨root, dir, name, hnames, checkFile_iff.2 ⟨rfl, hunder, fun resolved hresolved => ?_⟩⟩
        unfold pathExists at hmissing
        rw [hresolved] at hmissing
        cases hmissing
      refine h.written _ hok loc ?_
      rw [hwrite]
      exact hopen
    · -- a write that is refused has still made directories
      intro hnot loc hloc
      cases hresult : (resolveStorageFileForWrite fs storage requested).1 with
      | ok file => exact absurd (writable_iff.2 ⟨file, hresult⟩) hnot
      | error e =>
        refine h.writeRefused e hresult loc ?_
        rw [hwrite]
        exact (hmade loc).2 hloc
    · -- a read that is refused has still made the storage directory
      intro hnot loc hloc
      cases hresult : (resolveStorageFileForRead fs storage requested).1 with
      | ok file => exact absurd (readable_iff.2 ⟨file, hresult⟩) hnot
      | error e =>
        refine h.readRefused e hresult loc ?_
        rw [hread]
        exact (hmissing loc).2 hloc
  · intro h
    refine ⟨?_, ?_, ?_, ?_⟩
    · intro file hok loc hopen
      obtain ⟨root, dir, name, hnames, hcheck⟩ := write_ok_iff.1 hok
      obtain ⟨rfl, hunder, hchecked⟩ := checkFile_iff.1 hcheck
      rw [hwrite] at hopen
      rcases written_below hnames hunder hchecked hopen with hbelow | ⟨⟨target, hlink⟩, hnot⟩
      · exact hbelow
      · exact h.dangling root dir name target hnames hunder hlink hnot loc hopen
    · intro file hok loc hopen
      exact read_below hok hopen
    · intro e herror loc hchanged
      rw [hwrite] at hchanged
      refine h.unwritable (fun hwritable => ?_) loc ((hmade loc).1 hchanged)
      obtain ⟨file, hok⟩ := writable_iff.1 hwritable
      rw [herror] at hok
      cases hok
    · intro e herror loc hchanged
      rw [hread] at hchanged
      refine h.unreadable (fun hreadable => ?_) loc ((hmissing loc).1 hchanged)
      obtain ⟨file, hok⟩ := readable_iff.1 hreadable
      rw [herror] at hok
      cases hok

/-! ### A dangling link, and a directory outside -/

/-- A storage directory with a link to a file which is not there, outside. -/
private def linkedTree : FileTree.Tree Str where
  node loc :=
    if loc = [] ∨ loc = ["data"] then some .dir
    else if loc = ["data", "out.json"] then some (.link ⟨true, [.normal "outside.json"]⟩)
    else none
  root := rfl

/-- The link is accepted, and the file outside is written; an absolute path is refused after its directory has been
made. -/
theorem not_contained :
    (∃ file, (resolveStorageFileForWrite linkedTree [.normal "data"] "out.json").1 = .ok file ∧
        openForWrite (resolveStorageFileForWrite linkedTree [.normal "data"] "out.json").2 file =
          .ok ["outside.json"]) ∧
      (∃ e, (resolveStorageFileForWrite linkedTree [.normal "data"] "/tmp/x.json").1 = .error e) ∧
      (resolveStorageFileForWrite linkedTree [.normal "data"] "/tmp/x.json").2.isDirAt ["tmp"] = true ∧
      ¬ Contained linkedTree [.normal "data"] "out.json" ∧ ¬ Contained linkedTree [.normal "data"] "/tmp/x.json" := by
  have haccepted : (resolveStorageFileForWrite linkedTree [.normal "data"] "out.json").1 =
      .ok ["data", "out.json"] := by decide +kernel
  have hwritten : openForWrite (resolveStorageFileForWrite linkedTree [.normal "data"] "out.json").2
      ["data", "out.json"] = .ok ["outside.json"] := by decide +kernel
  have hrefused : (resolveStorageFileForWrite linkedTree [.normal "data"] "/tmp/x.json").1 = .error .outside := by
    decide +kernel
  have hroot : (storageRoot linkedTree [.normal "data"]).1 = .ok ["data"] := by decide +kernel
  have hdir : (resolveStorageFileForWrite linkedTree [.normal "data"] "/tmp/x.json").2.isDirAt ["tmp"] = true := by
    decide +kernel
  refine ⟨⟨_, haccepted, hwritten⟩, ⟨_, hrefused⟩, hdir, ?_, ?_⟩
  · intro h
    obtain ⟨root, hroot', hunder, -⟩ := h.written _ haccepted _ hwritten
    rw [hroot] at hroot'
    cases hroot'
    revert hunder
    decide
  · intro h
    have hchanged : (resolveStorageFileForWrite linkedTree [.normal "data"] "/tmp/x.json").2.node ["tmp"] ≠
        linkedTree.node ["tmp"] := by
      rw [FileTree.Tree.isDirAt_iff.1 hdir]
      exact fun heq => by cases heq
    obtain ⟨root, hroot', hunder⟩ := h.writeRefused _ hrefused _ hchanged
    rw [hroot] at hroot'
    cases hroot'
    revert hunder
    decide

end StoragePaths

end Oproxy
