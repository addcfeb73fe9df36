import Oproxy.ControlPlane.StoragePaths
import Oproxy.Middleware.Plugins.MapLocal

/-!
# Which files Map Local serves (`middleware/plugins/map_local.rs`)

The questions of `MapLocal` are put to a file tree: a path is read step by step, links on the way included, and a
canonical path is the text of the location which it leads to.  What a directory rule serves is compared with the
canonical path of the directory, text by text; the names in between are compared whole, since no name has a slash in it.
-/

namespace Oproxy

open FileTree

namespace MapLocal

/-! ### A file system -/

/-- What can stand for an entry of a directory. -/
structure IsName (name : Str) : Prop where
  ne_nil : name ≠ []
  ne_dot : name ≠ "."
  ne_dots : name ≠ ".."
  slash : '/' ∉ name
  nul : Char.ofNat 0 ∉ name

/-- A file tree with the contents of its files. -/
structure Files where
  tree : FileTree.Tree Str
  contents : List Str → Bytes

/-- The files of a machine as a process sees them. -/
structure Disk extends Files where
  names : ∀ loc, tree.node loc ≠ none → ∀ name ∈ loc, IsName name
  cwd : List Str

/-- The canonical path of a location. -/
def render (loc : List Str) : Str := if loc.isEmpty then "/" else loc.flatMap fun name => '/' :: name

namespace Disk

variable (disk : Disk)

/-- The steps of a path from the root, a relative one by way of the working directory. -/
def steps (path : Str) : List (Component Str) :=
  let parsed := StoragePaths.parsePath path
  if parsed.absolute then parsed.comps else StoragePaths.pathTo disk.cwd ++ parsed.comps

def resolvePath (path : Str) : Except Errno (List Str) :=
  if path.isEmpty then .error .notFound else StoragePaths.canonicalize disk.tree (disk.steps path)

/-- The system calls, with the texts of their errors. -/
def fileSystem (text : Errno → Str) : FileSystem where
  exist path :=
    match disk.resolvePath path with
    | .ok _ => true
    | .error _ => false
  isDir path :=
    match disk.resolvePath path with
    | .ok loc => disk.tree.isDirAt loc
    | .error _ => false
  isFile path :=
    match disk.resolvePath path with
    | .ok loc =>
      match disk.tree.node loc with
      | some .file => true
      | _ => false
    | .error _ => false
  canonicalize path :=
    match disk.resolvePath path with
    | .ok loc => .ok (render loc)
    | .error e => .error (text e)
  read path :=
    match disk.resolvePath path with
    | .ok loc =>
      match disk.tree.node loc with
      | some .file => some (disk.contents loc)
      | _ => none
    | .error _ => none

/-- A regular file below the directory to which a path leads. -/
def FileBelow (root : Str) (loc : List Str) : Prop :=
  ∃ dir, disk.resolvePath root = .ok dir ∧ disk.tree.node dir = some .dir ∧ dir <+: loc ∧ loc ≠ dir ∧
    FileTree.Tree.Canonical disk.tree loc ∧ disk.tree.node loc = some .file

end Disk

/-! ### Canonical paths -/

variable {disk : Disk}

private theorem split_flatMap (loc : List Str) (h : ∀ name ∈ loc, '/' ∉ name) :
    Str.split '/' (loc.flatMap fun name => '/' :: name) = [] :: loc := by
  induction loc using List.reverseRecOn with
  | nil => rfl
  | append_singleton loc name ih =>
    rw [List.flatMap_append, List.flatMap_singleton]
    have hlast : Str.split '/' name = [name] := List.splitOn_eq_singleton (h name (by simp))
    unfold Str.split at *
    rw [List.splitOn_append_cons_self, ih fun name' hname' => h name' (List.mem_append_left _ hname'), hlast]
    rfl

private theorem render_of_ne_nil {loc : List Str} (hne : loc ≠ []) :
    render loc = loc.flatMap fun name => '/' :: name := by
  unfold render
  rw [if_neg]
  rwa [List.isEmpty_iff]

/-- A canonical path does not end with a slash, but for the root. -/
private theorem getLast_render {loc : List Str} (hne : loc ≠ []) (h : ∀ name ∈ loc, IsName name) :
    (render loc).getLast? ≠ some '/' := by
  obtain ⟨above, name, rfl⟩ := List.eq_nil_or_concat loc |>.resolve_left hne
  rw [List.concat_eq_append] at h ⊢
  have hname := h name (by simp)
  rw [render_of_ne_nil (by simp), List.flatMap_append, List.flatMap_singleton]
  intro hlast
  have htail : ('/' :: name).getLast? = name.getLast? := by
    cases hsplit : name with
    | nil => exact absurd hsplit hname.ne_nil
    | cons c cs => rw [List.getLast?_cons_cons]
  rw [List.getLast?_append, htail] at hlast
  cases hcase : name.getLast? with
  | none => exact hname.ne_nil (List.getLast?_eq_none_iff.1 hcase)
  | some c =>
    rw [hcase] at hlast
    cases hlast
    exact hname.slash (List.mem_of_getLast? hcase)

/-- A canonical path is read as it was written. -/
theorem steps_render {loc : List Str} (hne : loc ≠ []) (h : ∀ name ∈ loc, IsName name) :
    disk.steps (render loc) = StoragePaths.pathTo loc := by
  have habsolute : Str.startsWith (render loc) "/" = true := by
    rw [Str.startsWith_iff, render_of_ne_nil hne]
    cases loc with
    | nil => exact absurd rfl hne
    | cons name loc => exact ⟨_, rfl⟩
  have hparts : (Str.split '/' (render loc)).filter (fun part => !part.isEmpty) = loc := by
    rw [render_of_ne_nil hne, split_flatMap loc fun name hname => (h name hname).slash,
      List.filter_cons_of_neg (by simp), List.filter_eq_self]
    intro name hname
    simpa using (h name hname).ne_nil
  unfold Disk.steps StoragePaths.parsePath
  dsimp only
  rw [habsolute, if_pos rfl, hparts, if_neg (getLast_render hne h), List.append_nil]
  refine List.map_congr_left fun name hname => ?_
  rw [if_neg (h name hname).ne_dot, if_neg (h name hname).ne_dots]

private theorem split_render (loc : List Str) (h : ∀ name ∈ loc, IsName name) :
    Str.split '/' (render loc) = [] :: if loc = [] then [[]] else loc := by
  by_cases hnil : loc = []
  · rw [hnil]
    decide
  · rw [render_of_ne_nil hnil, split_flatMap loc fun name hname => (h name hname).slash, if_neg hnil]

/-- Canonical paths are below each other as the locations are. -/
theorem prefix_of_isUnder {loc root : List Str} (hloc : ∀ name ∈ loc, IsName name)
    (hroot : ∀ name ∈ root, IsName name) (h : FilePath.isUnder (render loc) (render root) = true) : root <+: loc := by
  by_cases hnil : root = []
  · rw [hnil]
    exact List.nil_prefix
  · unfold FilePath.isUnder at h
    rw [if_neg (getLast_render hnil hroot), Bool.or_eq_true, beq_iff_eq, Str.startsWith_iff] at h
    have hsplit := split_render loc hloc
    rcases h with heq | ⟨r, heq⟩
    · rw [heq, split_render root hroot, if_neg hnil] at hsplit
      have htail := (List.cons.inj hsplit).2
      by_cases hempty : loc = []
      · rw [if_pos hempty] at htail
        exact absurd rfl (hroot [] (by rw [htail]; exact List.mem_cons_self)).ne_nil
      · rw [if_neg hempty] at htail
        rw [htail]
    · rw [heq, List.append_assoc, List.singleton_append] at hsplit
      unfold Str.split at hsplit
      rw [List.splitOn_append_cons_self] at hsplit
      change Str.split '/' (render root) ++ Str.split '/' r = _ at hsplit
      rw [split_render root hroot, if_neg hnil, List.cons_append] at hsplit
      have htail := (List.cons.inj hsplit).2
      by_cases hempty : loc = []
      · rw [if_pos hempty] at htail
        have hlength := congrArg List.length htail
        have hpos := List.length_pos_iff.2 hnil
        have hpos' : 0 < (Str.split '/' r).length := List.length_pos_iff.2 (List.splitOn_ne_nil _ _)
        rw [List.length_append, List.length_singleton] at hlength
        omega
      · rw [if_neg hempty] at htail
        rw [← htail]
        exact List.prefix_append _ _

/-! ### What is served -/

private theorem resolve_of_resolvePath {path : Str} {loc : List Str} (h : disk.resolvePath path = .ok loc) :
    disk.tree.resolve (disk.steps path) = .ok loc := by
  unfold Disk.resolvePath StoragePaths.canonicalize at h
  split at h
  · cases h
  · split at h
    · cases h
    · exact h

private theorem names_of_canonical {loc : List Str} (h : FileTree.Tree.Canonical disk.tree loc) :
    ∀ name ∈ loc, IsName name := by
  refine disk.names loc ?_
  rcases h.found with hnode | hnode <;> rw [hnode] <;> exact Option.some_ne_none _

/-- A canonical path leads where it came from. -/
theorem eq_of_resolvePath_render {loc loc' : List Str} (hcanonical : FileTree.Tree.Canonical disk.tree loc)
    (h : disk.resolvePath (render loc) = .ok loc') : loc' = loc := by
  have hresolve := resolve_of_resolvePath h
  by_cases hnil : loc = []
  · subst hnil
    have hstep : disk.steps (render []) = [.curDir] := rfl
    have hroot : disk.tree.resolve [.curDir] = .ok [] := by
      have hdir : disk.tree.isDirAt [] = true := FileTree.Tree.isDirAt_iff.2 disk.tree.root
      simp only [FileTree.Tree.resolve, FileTree.maxLinks, FileTree.Tree.walk, FileTree.Tree.walkFrom, hdir, if_true]
      rfl
    rw [hstep, hroot] at hresolve
    cases hresolve
    rfl
  · rw [steps_render hnil (names_of_canonical hcanonical)] at hresolve
    have hsame := FileTree.Tree.resolve_of_canonical hcanonical
    rw [show StoragePaths.pathTo loc = loc.map .normal from rfl, hsame] at hresolve
    cases hresolve
    rfl

/-- What is a file by its canonical path is one. -/
theorem node_of_isFile {text : Errno → Str} {loc : List Str} (hcanonical : FileTree.Tree.Canonical disk.tree loc)
    (hfile : (disk.fileSystem text).isFile (render loc) = true) : disk.tree.node loc = some .file := by
  unfold Disk.fileSystem at hfile
  dsimp only at hfile
  split at hfile
  · rename_i loc' hresolve
    obtain rfl := eq_of_resolvePath_render hcanonical hresolve
    split at hfile
    · assumption
    · cases hfile
  · cases hfile

/-- What is read by a canonical path are the contents of the file there. -/
theorem contents_of_read {text : Errno → Str} {loc : List Str} {contents : Bytes}
    (hcanonical : FileTree.Tree.Canonical disk.tree loc)
    (hread : (disk.fileSystem text).read (render loc) = some contents) : contents = disk.contents loc := by
  unfold Disk.fileSystem at hread
  dsimp only at hread
  split at hread
  · rename_i loc' hresolve
    obtain rfl := eq_of_resolvePath_render hcanonical hresolve
    split at hread
    · cases hread
      rfl
    · cases hread
  · cases hread

/-- A directory rule serves regular files below its directory, whatever the path of the request. -/
theorem fileBelow_of_pathForRequest {text : Errno → Str} {root requestPath path : Str}
    (hdir : (disk.fileSystem text).isDir root = true)
    (h : pathForRequest (disk.fileSystem text) root requestPath = .ok (some path)) :
    ∃ loc, path = render loc ∧ disk.FileBelow root loc := by
  obtain ⟨dir, hroot, hnode⟩ : ∃ dir, disk.resolvePath root = .ok dir ∧ disk.tree.isDirAt dir = true := by
    unfold Disk.fileSystem at hdir
    dsimp only at hdir
    split at hdir
    · rename_i dir hroot
      exact ⟨dir, hroot, hdir⟩
    · cases hdir
  have hexist : (disk.fileSystem text).exist root = true := by
    unfold Disk.fileSystem
    dsimp only
    rw [hroot]
  have hcanonicalRoot : (disk.fileSystem text).canonicalize root = .ok (render dir) := by
    unfold Disk.fileSystem
    dsimp only
    rw [hroot]
  unfold pathForRequest at h
  rw [hexist, hdir, hcanonicalRoot] at h
  simp only [Bool.not_true, Bool.false_eq_true, if_false, if_true] at h
  cases hcandidate : disk.resolvePath (FilePath.join root (requestPath.dropWhile (· = '/'))) with
  | error e =>
    have hcanonicalize : (disk.fileSystem text).canonicalize (FilePath.join root (requestPath.dropWhile (· = '/'))) =
        .error (text e) := by
      unfold Disk.fileSystem
      dsimp only
      rw [hcandidate]
    rw [hcanonicalize] at h
    cases h
  | ok loc =>
    have hcanonicalize : (disk.fileSystem text).canonicalize (FilePath.join root (requestPath.dropWhile (· = '/'))) =
        .ok (render loc) := by
      unfold Disk.fileSystem
      dsimp only
      rw [hcandidate]
    rw [hcanonicalize] at h
    dsimp only at h
    split at h
    · rename_i hchecks
      cases h
      rw [Bool.and_eq_true] at hchecks
      have hcanonical := FileTree.Tree.canonical_of_resolve (resolve_of_resolvePath hcandidate)
      have hfile := node_of_isFile hcanonical hchecks.2
      have hdirNode := FileTree.Tree.isDirAt_iff.1 hnode
      have hdirCanonical := FileTree.Tree.canonical_of_resolve (resolve_of_resolvePath hroot)
      refine ⟨loc, rfl, dir, hroot, hdirNode, ?_, ?_, hcanonical, hfile⟩
      · exact prefix_of_isUnder (names_of_canonical hcanonical) (names_of_canonical hdirCanonical) hchecks.1
      · intro heq
        rw [heq, hdirNode] at hfile
        cases hfile
    · cases h

/-- An answer of Map Local: an error, or a file which a rule names. -/
def Answers (fs : FileSystem) (dirs : Dirs) (rules : List MapLocalRule) (requestPath : Str)
    (response : InterceptedResponse) : Prop :=
  (∃ message, response = mapLocalError message) ∨
    ∃ rule ∈ rules, rule.enabled = true ∧ ∃ path contents,
      pathForRequest fs (resolveMapLocalPath fs dirs rule.filePath) requestPath = .ok (some path) ∧
        fs.read path = some contents ∧ response = fileResponse path contents

/-- What a request is answered with is what `path_for_request` gives for an enabled rule. -/
theorem answers_of_onRequest {fs : FileSystem} {regex : RegexEngine} {dirs : Dirs} {rules : List MapLocalRule}
    {ctx : RequestContext} (hstop : (onRequest fs regex dirs rules ctx).2 = .stopAndReturn) :
    ∃ response, (onRequest fs regex dirs rules ctx).1.mockResponse = some response ∧
      Answers fs dirs rules (MatchTarget.fromRequest ctx).path response := by
  unfold onRequest at hstop ⊢
  generalize MatchTarget.fromRequest ctx = target at hstop ⊢
  have hloop : ∀ (candidates : List MapLocalRule) (ctx : RequestContext),
      (∀ rule ∈ candidates, rule ∈ rules ∧ rule.enabled = true) →
      (serveLoop fs regex dirs target candidates ctx).2 = .stopAndReturn →
      ∃ response, (serveLoop fs regex dirs target candidates ctx).1.mockResponse = some response ∧
        Answers fs dirs rules target.path response := by
    intro candidates
    induction candidates with
    | nil =>
      intro ctx _ hstop
      cases hstop
    | cons rule candidates ih =>
      intro ctx hrules hstop
      rw [List.forall_mem_cons] at hrules
      unfold serveLoop at hstop ⊢
      by_cases hmatches : (!rule.location.matchesTarget regex target) = true
      · rw [if_pos hmatches] at hstop ⊢
        exact ih ctx hrules.2 hstop
      · rw [if_neg hmatches] at hstop ⊢
        dsimp only at hstop ⊢
        cases hpath : pathForRequest fs (resolveMapLocalPath fs dirs rule.filePath) target.path with
        | error message => exact ⟨_, rfl, Or.inl ⟨message, rfl⟩⟩
        | ok found =>
          rw [hpath] at hstop
          cases found with
          | none => exact ih _ hrules.2 hstop
          | some path =>
            dsimp only at hstop ⊢
            cases hread : fs.read path with
            | none =>
              rw [hread] at hstop
              exact ih _ hrules.2 hstop
            | some contents =>
              exact ⟨_, rfl, Or.inr ⟨rule, hrules.1.1, hrules.1.2, path, contents, hpath, hread, rfl⟩⟩
  refine hloop _ ctx (fun rule hrule => ?_) hstop
  obtain ⟨hmem, henabled⟩ := List.mem_filter.1 hrule
  exact ⟨hmem, henabled⟩

end MapLocal

end Oproxy
