import Mathlib.Data.List.Infix

/-!
# File trees

Directories, files and symbolic links, as a partial map from locations to nodes.  A location is the list of the names
from the root down, so that below means prefix.  Paths are resolved from left to right, links on the way included, and
`createDirAll` makes the directories which are missing on the way.
-/

namespace FileTree

/-- One step of a path. -/
inductive Component (N : Type) where
  | normal (name : N)
  | curDir
  | parentDir
  deriving DecidableEq

structure Path (N : Type) where
  absolute : Bool
  comps : List (Component N)

inductive Node (N : Type) where
  | dir
  | file
  | link (target : Path N)

inductive Errno where
  | notFound | notDir | loop | exist | isDir | invalid
  deriving DecidableEq

structure Tree (N : Type) where
  node : List N → Option (Node N)
  root : node [] = some .dir

/-- How many links are followed in one resolution. -/
def maxLinks : Nat := 40

namespace Tree

variable {N : Type}

def isDirAt (fs : Tree N) (loc : List N) : Bool :=
  match fs.node loc with
  | some .dir => true
  | _ => false

theorem isDirAt_iff {fs : Tree N} {loc : List N} : fs.isDirAt loc = true ↔ fs.node loc = some .dir := by
  unfold isDirAt
  split
  · rename_i h
    simp [h]
  · rename_i h
    simp only [Bool.false_eq_true, false_iff]
    exact h

/-! ### Resolution -/

/-- One pass over the components, with `follow` for what a link leads to; `create` lets the last name be missing. -/
def walkFrom (fs : Tree N) (create : Bool)
    (follow : List (Component N) → List N → Except Errno (List N × Nat)) (fuel : Nat) :
    List (Component N) → List N → Except Errno (List N × Nat)
  | [], loc => .ok (loc, fuel)
  | c :: cs, loc =>
    if fs.isDirAt loc then
      match c with
      | .curDir => walkFrom fs create follow fuel cs loc
      | .parentDir => walkFrom fs create follow fuel cs loc.dropLast
      | .normal name =>
        match fs.node (loc ++ [name]) with
        | none => if create && cs.isEmpty then .ok (loc ++ [name], fuel) else .error .notFound
        | some (.link target) => follow (target.comps ++ cs) (if target.absolute then [] else loc)
        | some .dir => walkFrom fs create follow fuel cs (loc ++ [name])
        | some .file => walkFrom fs create follow fuel cs (loc ++ [name])
    else .error .notDir

/-- Where a path leads from a location, and how many more links may be followed. -/
def walk (fs : Tree N) (create : Bool) : Nat → List (Component N) → List N → Except Errno (List N × Nat)
  | 0 => walkFrom fs create (fun _ _ => .error .loop) 0
  | fuel + 1 => walkFrom fs create (walk fs create fuel) (fuel + 1)

/-- The location of a path from the root. -/
def resolve (fs : Tree N) (comps : List (Component N)) : Except Errno (List N) :=
  (fs.walk false maxLinks comps []).map Prod.fst

def isDir (fs : Tree N) (comps : List (Component N)) : Bool :=
  match fs.resolve comps with
  | .ok loc => fs.isDirAt loc
  | .error _ => false

def isFile (fs : Tree N) (comps : List (Component N)) : Bool :=
  match fs.resolve comps with
  | .ok loc =>
    match fs.node loc with
    | some .file => true
    | _ => false
  | .error _ => false

/-- The location of the file which is opened for reading. -/
def openForRead (fs : Tree N) (comps : List (Component N)) : Except Errno (List N) :=
  match fs.resolve comps with
  | .ok loc => if fs.isDirAt loc then .error .isDir else .ok loc
  | .error e => .error e

/-- The location of the file which is opened for writing: it is made where it is missing, at the end of a link too. -/
def openForWrite (fs : Tree N) (comps : List (Component N)) : Except Errno (List N) :=
  match fs.walk true maxLinks comps [] with
  | .ok (loc, _) => if fs.isDirAt loc then .error .isDir else .ok loc
  | .error e => .error e

/-- The location of the entry which is taken out of its directory: a file, or a link itself. -/
def unlink (fs : Tree N) (comps : List (Component N)) : Except Errno (List N) :=
  match comps.getLast? with
  | some (.normal name) =>
    match fs.resolve comps.dropLast with
    | .error e => .error e
    | .ok loc =>
      if fs.isDirAt loc then
        match fs.node (loc ++ [name]) with
        | none => .error .notFound
        | some .dir => .error .isDir
        | some .file => .ok (loc ++ [name])
        | some (.link _) => .ok (loc ++ [name])
      else .error .notDir
  | _ => .error .isDir

/-! ### Directories -/

section

variable [DecidableEq N]

/-- The tree with more directories, below the root. -/
def addDirs (fs : Tree N) (locs : List (List N)) : Tree N where
  node q := if q ∈ locs then some .dir else fs.node q
  root := by
    split
    · rfl
    · exact fs.root

/-- The location at which a directory can be made. -/
def mkdir (fs : Tree N) (comps : List (Component N)) : Except Errno (List N) :=
  match comps.getLast? with
  | none => .error .exist
  | some last =>
    match fs.resolve comps.dropLast with
    | .error e => .error e
    | .ok loc =>
      if fs.isDirAt loc then
        match last with
        | .normal name => if (fs.node (loc ++ [name])).isSome then .error .exist else .ok (loc ++ [name])
        | .curDir => .error .exist
        | .parentDir => .error .exist
      else .error .notDir

/-- Make a directory with its missing parents.  The components come last first: the attempt at the whole path comes
before the parents. -/
def createRev (fs : Tree N) : List (Component N) → Except Errno Unit × Tree N
  | [] => (.ok (), fs)
  | c :: cs =>
    match fs.mkdir (c :: cs).reverse with
    | .ok loc => (.ok (), fs.addDirs [loc])
    | .error .notFound =>
      match createRev fs cs with
      | (.error e, fs') => (.error e, fs')
      | (.ok (), fs') =>
        match fs'.mkdir (c :: cs).reverse with
        | .ok loc => (.ok (), fs'.addDirs [loc])
        | .error e => (if fs'.isDir (c :: cs).reverse then .ok () else .error e, fs')
    | .error e => (if fs.isDir (c :: cs).reverse then .ok () else .error e, fs)

def createDirAll (fs : Tree N) (comps : List (Component N)) : Except Errno Unit × Tree N := fs.createRev comps.reverse

/-- The directories which are missing on the way, from the left, and whether the whole path is there once they are
made. -/
def missingRev (fs : Tree N) : List (Component N) → List (List N) × Bool
  | [] => ([], true)
  | c :: cs =>
    match missingRev fs cs with
    | (locs, false) => (locs, false)
    | (locs, true) =>
      match (fs.addDirs locs).mkdir (c :: cs).reverse with
      | .ok loc => (locs ++ [loc], true)
      | .error _ => (locs, (fs.addDirs locs).isDir (c :: cs).reverse)

def missingDirs (fs : Tree N) (comps : List (Component N)) : List (List N) := (fs.missingRev comps.reverse).1

end

/-! ### Walks -/

variable {fs : Tree N} {create : Bool}

/-- What is done at a link. -/
private def next (fs : Tree N) (create : Bool) : Nat → List (Component N) → List N → Except Errno (List N × Nat)
  | 0 => fun _ _ => .error .loop
  | fuel + 1 => fs.walk create fuel

private theorem walk_eq (fuel : Nat) : fs.walk create fuel = walkFrom fs create (next fs create fuel) fuel := by
  cases fuel <;> rfl

private theorem walkFrom_append {follow follow' : List (Component N) → List N → Except Errno (List N × Nat)}
    {fuel : Nat}
    {b : List (Component N)} (hb : b ≠ []) {rest : List N × Nat → Except Errno (List N × Nat)}
    (hrest : ∀ loc, walkFrom fs create follow fuel b loc = rest (loc, fuel))
    (hfollow : ∀ cs loc, follow (cs ++ b) loc = (follow' cs loc).bind rest) (a : List (Component N)) (loc : List N) :
    walkFrom fs create follow fuel (a ++ b) loc = (walkFrom fs false follow' fuel a loc).bind rest := by
  induction a generalizing loc with
  | nil => exact hrest loc
  | cons c cs ih =>
    have hempty : (cs ++ b).isEmpty = false := by
      rw [List.isEmpty_eq_false_iff]
      exact fun h => hb (List.append_eq_nil_iff.1 h).2
    rw [List.cons_append]
    unfold walkFrom
    split
    · cases c with
      | curDir => exact ih loc
      | parentDir => exact ih loc.dropLast
      | normal name =>
        dsimp only
        cases fs.node (loc ++ [name]) with
        | none =>
          simp only [hempty, Bool.and_false, Bool.false_and, Bool.false_eq_true, if_false]
          rfl
        | some node =>
          cases node with
          | dir => exact ih (loc ++ [name])
          | file => exact ih (loc ++ [name])
          | link target =>
            dsimp only
            rw [← List.append_assoc]
            exact hfollow _ _
    · rfl

/-- A path is walked piece by piece. -/
theorem walk_append (fuel : Nat) (a : List (Component N)) {b : List (Component N)} (hb : b ≠ []) (loc : List N) :
    fs.walk create fuel (a ++ b) loc =
      (fs.walk false fuel a loc).bind fun reached => fs.walk create reached.2 b reached.1 := by
  induction fuel generalizing a loc with
  | zero => exact walkFrom_append hb (fun _ => rfl) (fun _ _ => rfl) a loc
  | succ fuel ih => exact walkFrom_append hb (fun _ => rfl) (fun cs loc => ih cs loc) a loc

/-- What is found without the licence to make a file is found with it. -/
private theorem walkFrom_create {follow follow' : List (Component N) → List N → Except Errno (List N × Nat)}
    {fuel : Nat}
    (hfollow : ∀ cs loc reached, follow cs loc = .ok reached → follow' cs loc = .ok reached) (cs : List (Component N))
    {loc : List N} {reached : List N × Nat} (h : walkFrom fs false follow fuel cs loc = .ok reached) :
    walkFrom fs true follow' fuel cs loc = .ok reached := by
  induction cs generalizing loc with
  | nil => exact h
  | cons c cs ih =>
    unfold walkFrom at h ⊢
    split
    · rename_i hdir
      rw [if_pos hdir] at h
      cases c with
      | curDir => exact ih h
      | parentDir => exact ih h
      | normal name =>
        dsimp only at h ⊢
        cases hnode : fs.node (loc ++ [name]) with
        | none =>
          rw [hnode] at h
          cases h
        | some node =>
          rw [hnode] at h
          cases node with
          | dir => exact ih h
          | file => exact ih h
          | link target => exact hfollow _ _ _ h
    · rename_i hdir
      rw [if_neg hdir] at h
      cases h

theorem walk_create {fuel : Nat} {cs : List (Component N)} {loc : List N} {reached : List N × Nat}
    (h : fs.walk false fuel cs loc = .ok reached) : fs.walk true fuel cs loc = .ok reached := by
  induction fuel generalizing cs loc reached with
  | zero => exact walkFrom_create (fun _ _ _ h => by cases h) cs h
  | succ fuel ih => exact walkFrom_create (fun _ _ _ h => ih h) cs h

/-! ### Canonical locations -/

/-- A location which stands for itself: on the way to it there are directories only, and it is no link. -/
structure Canonical (fs : Tree N) (loc : List N) : Prop where
  above : ∀ q, q <+: loc → q ≠ loc → fs.isDirAt q = true
  found : fs.node loc = some .dir ∨ fs.node loc = some .file

theorem canonical_root : Canonical fs [] where
  above _ hq hne := absurd (List.prefix_nil.1 hq) hne
  found := Or.inl fs.root

private theorem Canonical.child {loc : List N} (h : Canonical fs loc) (hdir : fs.isDirAt loc = true) {name : N}
    (hfound : fs.node (loc ++ [name]) = some .dir ∨ fs.node (loc ++ [name]) = some .file) :
    Canonical fs (loc ++ [name]) := by
  refine ⟨?_, hfound⟩
  intro q hq hne
  rcases List.prefix_concat_iff.1 hq with heq | hq
  · exact absurd heq hne
  · by_cases heq : q = loc
    · rw [heq]
      exact hdir
    · exact h.above q hq heq

private theorem Canonical.parent {loc : List N} (h : Canonical fs loc) : Canonical fs loc.dropLast := by
  by_cases hnil : loc = []
  · rw [hnil]
    exact canonical_root
  · have hne : loc.dropLast ≠ loc := by
      intro heq
      have hlength := congrArg List.length heq
      have hpos := List.length_pos_iff.2 hnil
      rw [List.length_dropLast] at hlength
      omega
    refine ⟨?_, Or.inl (isDirAt_iff.1 (h.above _ (List.dropLast_prefix loc) hne))⟩
    intro q hq _
    refine h.above q (hq.trans (List.dropLast_prefix loc)) ?_
    intro heq
    have hlength := hq.length_le
    have hpos := List.length_pos_iff.2 hnil
    rw [heq, List.length_dropLast] at hlength
    omega

private theorem walkFrom_canonical {follow : List (Component N) → List N → Except Errno (List N × Nat)} {fuel : Nat}
    (hfollow : ∀ cs loc reached, Canonical fs loc → follow cs loc = .ok reached → Canonical fs reached.1)
    (cs : List (Component N)) {loc : List N} {reached : List N × Nat} (hloc : Canonical fs loc)
    (h : walkFrom fs false follow fuel cs loc = .ok reached) : Canonical fs reached.1 := by
  induction cs generalizing loc with
  | nil =>
    cases h
    exact hloc
  | cons c cs ih =>
    unfold walkFrom at h
    split at h
    · rename_i hdir
      cases c with
      | curDir => exact ih hloc h
      | parentDir => exact ih hloc.parent h
      | normal name =>
        dsimp only at h
        cases hnode : fs.node (loc ++ [name]) with
        | none =>
          rw [hnode] at h
          cases h
        | some node =>
          rw [hnode] at h
          cases node with
          | dir => exact ih (hloc.child hdir (Or.inl hnode)) h
          | file => exact ih (hloc.child hdir (Or.inr hnode)) h
          | link target =>
            refine hfollow _ _ _ ?_ h
            split
            · exact canonical_root
            · exact hloc
    · cases h

private theorem walk_canonical {fuel : Nat} {cs : List (Component N)} {loc : List N} {reached : List N × Nat}
    (hloc : Canonical fs loc) (h : fs.walk false fuel cs loc = .ok reached) : Canonical fs reached.1 := by
  induction fuel generalizing cs loc reached with
  | zero => exact walkFrom_canonical (fun _ _ _ _ h => by cases h) cs hloc h
  | succ fuel ih => exact walkFrom_canonical (fun _ _ _ hloc h => ih hloc h) cs hloc h

/-- Every path leads to a canonical location. -/
theorem canonical_of_resolve {comps : List (Component N)} {loc : List N} (h : fs.resolve comps = .ok loc) :
    Canonical fs loc := by
  unfold resolve at h
  cases hwalk : fs.walk false maxLinks comps [] with
  | error e =>
    rw [hwalk] at h
    cases h
  | ok reached =>
    rw [hwalk] at h
    cases h
    exact walk_canonical canonical_root hwalk

/-- The way from one canonical location down to another one takes no links. -/
theorem walk_of_canonical {loc rest : List N} (h : Canonical fs (loc ++ rest)) (fuel : Nat) :
    fs.walk create fuel (rest.map .normal) loc = .ok (loc ++ rest, fuel) := by
  rw [walk_eq]
  induction rest generalizing loc with
  | nil =>
    rw [List.append_nil]
    rfl
  | cons name rest ih =>
    have hsplit : loc ++ name :: rest = loc ++ [name] ++ rest := by simp
    have hdir : fs.isDirAt loc = true := by
      refine h.above loc (List.prefix_append _ _) ?_
      exact fun heq => List.cons_ne_nil _ _ (List.self_eq_append_right.1 heq)
    rw [hsplit] at h ⊢
    have hfound : fs.node (loc ++ [name]) = some .dir ∨ fs.node (loc ++ [name]) = some .file := by
      by_cases hrest : rest = []
      · rw [hrest, List.append_nil] at h
        exact h.found
      · refine Or.inl (isDirAt_iff.1 (h.above _ (List.prefix_append _ _) ?_))
        exact fun heq => hrest (List.self_eq_append_right.1 heq)
    rw [List.map_cons]
    unfold walkFrom
    rw [if_pos hdir]
    dsimp only
    rcases hfound with hnode | hnode
    · rw [hnode]
      exact ih h
    · rw [hnode]
      exact ih h

theorem resolve_of_canonical {loc : List N} (h : Canonical fs loc) : fs.resolve (loc.map .normal) = .ok loc := by
  have hwalk := @walk_of_canonical N fs false [] loc h maxLinks
  unfold resolve
  rw [hwalk]
  rfl

/-! ### Opening a file -/

/-- A file which is there is the one which is written. -/
theorem openForWrite_of_resolve {comps : List (Component N)} {loc loc' : List N} (h : fs.resolve comps = .ok loc)
    (hopen : fs.openForWrite comps = .ok loc') : loc' = loc := by
  unfold resolve at h
  unfold openForWrite at hopen
  cases hwalk : fs.walk false maxLinks comps [] with
  | error e =>
    rw [hwalk] at h
    cases h
  | ok reached =>
    rw [hwalk] at h
    cases h
    rw [walk_create hwalk] at hopen
    dsimp only at hopen
    split at hopen
    · cases hopen
    · cases hopen
      rfl

private theorem resolve_of_walk {cs : List (Component N)} {reached : List N × Nat}
    (h : fs.walk false maxLinks cs [] = .ok reached) : fs.resolve cs = .ok reached.1 := by
  unfold resolve
  rw [h]
  rfl

/-- A name leads to itself, unless it is a link. -/
private theorem walk_name {fuel : Nat} {loc : List N} {name : N} {reached : List N × Nat}
    (h : fs.walk create fuel [.normal name] loc = .ok reached) :
    reached.1 = loc ++ [name] ∨ ∃ target, fs.node (loc ++ [name]) = some (.link target) := by
  rw [walk_eq] at h
  unfold walkFrom at h
  by_cases hdir : fs.isDirAt loc = true
  · rw [if_pos hdir] at h
    dsimp only at h
    cases hnode : fs.node (loc ++ [name]) with
    | none =>
      rw [hnode] at h
      dsimp only at h
      split at h
      · cases h
        exact Or.inl rfl
      · cases h
    | some node =>
      rw [hnode] at h
      cases node with
      | link target => exact Or.inr ⟨target, rfl⟩
      | dir =>
        cases h
        exact Or.inl rfl
      | file =>
        cases h
        exact Or.inl rfl
  · rw [if_neg hdir] at h
    cases h

private theorem walk_concat {cs : List (Component N)} {name : N} {reached : List N × Nat}
    (h : fs.walk create maxLinks (cs ++ [.normal name]) [] = .ok reached) :
    ∃ loc, fs.resolve cs = .ok loc ∧
      (reached.1 = loc ++ [name] ∨ ∃ target, fs.node (loc ++ [name]) = some (.link target)) := by
  rw [walk_append maxLinks cs (List.cons_ne_nil _ [])] at h
  cases hwalk : fs.walk false maxLinks cs [] with
  | error e =>
    rw [hwalk] at h
    cases h
  | ok before =>
    rw [hwalk] at h
    exact ⟨before.1, resolve_of_walk hwalk, walk_name h⟩

/-- A file which is written has its name where the rest of the path leads, unless the name is a link. -/
theorem openForWrite_concat {cs : List (Component N)} {name : N} {loc' : List N}
    (hopen : fs.openForWrite (cs ++ [.normal name]) = .ok loc') :
    ∃ loc, fs.resolve cs = .ok loc ∧
      (loc' = loc ++ [name] ∨ ∃ target, fs.node (loc ++ [name]) = some (.link target)) := by
  unfold openForWrite at hopen
  split at hopen
  · rename_i reached fuel hwalk
    split at hopen
    · cases hopen
    · cases hopen
      exact walk_concat hwalk
  · cases hopen

/-- So has what is found at the end of a path. -/
theorem resolve_name {cs : List (Component N)} {name : N} {loc' : List N}
    (h : fs.resolve (cs ++ [.normal name]) = .ok loc') :
    ∃ loc, fs.resolve cs = .ok loc ∧
      (loc' = loc ++ [name] ∨ ∃ target, fs.node (loc ++ [name]) = some (.link target)) := by
  unfold resolve at h
  cases hwalk : fs.walk false maxLinks (cs ++ [.normal name]) [] with
  | error e =>
    rw [hwalk] at h
    cases h
  | ok reached =>
    rw [hwalk] at h
    cases h
    exact walk_concat hwalk

/-- A name in a canonical directory is written itself, unless it is a link. -/
theorem openForWrite_child {loc loc' : List N} {name : N} (h : Canonical fs loc)
    (hopen : fs.openForWrite (loc.map .normal ++ [.normal name]) = .ok loc') :
    loc' = loc ++ [name] ∨ ∃ target, fs.node (loc ++ [name]) = some (.link target) := by
  obtain ⟨parent, hparent, hcases⟩ := openForWrite_concat hopen
  rw [resolve_of_canonical h] at hparent
  cases hparent
  exact hcases

/-- The entry which is taken out has its name where the rest of the path leads. -/
theorem unlink_concat {cs : List (Component N)} {name : N} {loc' : List N}
    (h : fs.unlink (cs ++ [.normal name]) = .ok loc') : ∃ loc, fs.resolve cs = .ok loc ∧ loc' = loc ++ [name] := by
  unfold unlink at h
  rw [List.getLast?_concat, List.dropLast_concat] at h
  dsimp only at h
  split at h
  · cases h
  · rename_i loc hresolve
    refine ⟨loc, hresolve, ?_⟩
    split at h
    · split at h
      · cases h
      · cases h
      · cases h
        rfl
      · cases h
        rfl
    · cases h

/-- What stands for itself is read itself. -/
theorem openForRead_of_canonical {loc loc' : List N} (h : Canonical fs loc)
    (hopen : fs.openForRead (loc.map .normal) = .ok loc') : loc' = loc := by
  unfold openForRead at hopen
  rw [resolve_of_canonical h] at hopen
  dsimp only at hopen
  split at hopen
  · cases hopen
  · cases hopen
    rfl

theorem isFile_of_canonical {loc : List N} (h : Canonical fs loc) (hfile : fs.isFile (loc.map .normal) = true) :
    fs.node loc = some .file := by
  unfold isFile at hfile
  rw [resolve_of_canonical h] at hfile
  dsimp only at hfile
  split at hfile
  · assumption
  · cases hfile

/-! ### The last step of a path -/

private theorem resolve_concat (cs : List (Component N)) (c : Component N) :
    fs.resolve (cs ++ [c]) =
      ((fs.walk false maxLinks cs []).bind fun reached => fs.walk false reached.2 [c] reached.1).map Prod.fst := by
  unfold resolve
  rw [walk_append maxLinks cs (List.cons_ne_nil c [])]

/-- A path which goes wrong goes on going wrong. -/
private theorem resolve_concat_error {cs : List (Component N)} {e : Errno} (h : fs.resolve cs = .error e)
    (c : Component N) : fs.resolve (cs ++ [c]) = .error e := by
  rw [resolve_concat]
  cases hwalk : fs.walk false maxLinks cs [] with
  | error e' =>
    unfold resolve at h
    rw [hwalk] at h
    exact h
  | ok reached =>
    rw [resolve_of_walk hwalk] at h
    cases h

/-- What has something behind it is a directory. -/
private theorem isDir_of_concat {cs : List (Component N)} {c : Component N} {loc : List N}
    (h : fs.resolve (cs ++ [c]) = .ok loc) : fs.isDir cs = true := by
  rw [resolve_concat] at h
  cases hwalk : fs.walk false maxLinks cs [] with
  | error e =>
    rw [hwalk] at h
    cases h
  | ok reached =>
    unfold isDir
    rw [resolve_of_walk hwalk]
    dsimp only
    by_contra hnot
    rw [hwalk] at h
    change (fs.walk false reached.2 [c] reached.1).map Prod.fst = _ at h
    rw [walk_eq] at h
    unfold walkFrom at h
    rw [if_neg hnot] at h
    cases h

private theorem isDir_false_of_error {cs : List (Component N)} {e : Errno} (h : fs.resolve cs = .error e) :
    fs.isDir cs = false := by
  unfold isDir
  rw [h]

private theorem mkdir_concat (cs : List (Component N)) (c : Component N) :
    fs.mkdir (cs ++ [c]) =
      match fs.resolve cs with
      | .error e => .error e
      | .ok loc =>
        if fs.isDirAt loc then
          match c with
          | .normal name => if (fs.node (loc ++ [name])).isSome then .error .exist else .ok (loc ++ [name])
          | .curDir => .error .exist
          | .parentDir => .error .exist
        else .error .notDir := by
  unfold mkdir
  rw [List.getLast?_concat, List.dropLast_concat]

/-- A directory is made where there is nothing, in a directory. -/
theorem mkdir_ok {cs : List (Component N)} {c : Component N} {loc : List N} (h : fs.mkdir (cs ++ [c]) = .ok loc) :
    ∃ above name, fs.resolve cs = .ok above ∧ fs.isDirAt above = true ∧ c = .normal name ∧ loc = above ++ [name] ∧
      fs.node loc = none := by
  rw [mkdir_concat] at h
  cases habove : fs.resolve cs with
  | error e =>
    rw [habove] at h
    cases h
  | ok above =>
    rw [habove] at h
    dsimp only at h
    split at h
    · rename_i hdir
      cases c with
      | curDir => cases h
      | parentDir => cases h
      | normal name =>
        dsimp only at h
        split at h
        · cases h
        · rename_i hfree
          cases h
          exact ⟨above, name, rfl, hdir, rfl, rfl, by simpa using hfree⟩
    · cases h

private theorem resolve_of_mkdir {cs : List (Component N)} {c : Component N} {loc : List N}
    (h : fs.mkdir (cs ++ [c]) = .ok loc) : fs.resolve (cs ++ [c]) = .error .notFound := by
  obtain ⟨above, name, habove, hdir, rfl, rfl, hnone⟩ := mkdir_ok h
  rw [resolve_concat]
  cases hwalk : fs.walk false maxLinks cs [] with
  | error e =>
    unfold resolve at habove
    rw [hwalk] at habove
    cases habove
  | ok reached =>
    rw [resolve_of_walk hwalk] at habove
    cases habove
    change (fs.walk false reached.2 [.normal name] reached.1).map Prod.fst = _
    rw [walk_eq]
    unfold walkFrom
    rw [if_pos hdir]
    dsimp only
    rw [hnone]
    rfl

/-! ### More directories -/

variable [DecidableEq N]

theorem node_addDirs (locs : List (List N)) (q : List N) :
    (fs.addDirs locs).node q = if q ∈ locs then some .dir else fs.node q := rfl

@[simp] theorem addDirs_nil (fs : Tree N) : fs.addDirs [] = fs := by
  have hnode : (fs.addDirs []).node = fs.node := by
    funext q
    rw [node_addDirs, if_neg List.not_mem_nil]
  cases fs
  cases hnode
  rfl

theorem addDirs_append (fs : Tree N) (a b : List (List N)) : fs.addDirs (a ++ b) = (fs.addDirs a).addDirs b := by
  unfold addDirs
  congr 1
  funext q
  dsimp only
  by_cases ha : q ∈ a <;> by_cases hb : q ∈ b <;> simp [ha, hb]

/-- Directories which were missing do not get in the way of what was found. -/
private theorem walkFrom_addDirs {follow follow' : List (Component N) → List N → Except Errno (List N × Nat)}
    {fuel : Nat} {locs : List (List N)} (hmissing : ∀ q ∈ locs, fs.node q = none)
    (hfollow : ∀ cs loc reached, follow cs loc = .ok reached → follow' cs loc = .ok reached) (cs : List (Component N))
    {loc : List N} {reached : List N × Nat} (h : walkFrom fs false follow fuel cs loc = .ok reached) :
    walkFrom (fs.addDirs locs) false follow' fuel cs loc = .ok reached := by
  have hkept : ∀ q node, fs.node q = some node → (fs.addDirs locs).node q = some node := by
    intro q node hnode
    rw [node_addDirs, if_neg]
    · exact hnode
    · intro hmem
      rw [hmissing q hmem] at hnode
      cases hnode
  induction cs generalizing loc with
  | nil => exact h
  | cons c cs ih =>
    unfold walkFrom at h ⊢
    by_cases hdir : fs.isDirAt loc = true
    · rw [if_pos hdir] at h
      rw [if_pos (isDirAt_iff.2 (hkept loc .dir (isDirAt_iff.1 hdir)))]
      cases c with
      | curDir => exact ih h
      | parentDir => exact ih h
      | normal name =>
        dsimp only at h ⊢
        cases hnode : fs.node (loc ++ [name]) with
        | none =>
          rw [hnode] at h
          cases h
        | some node =>
          rw [hkept _ node hnode]
          rw [hnode] at h
          cases node with
          | dir => exact ih h
          | file => exact ih h
          | link target => exact hfollow _ _ _ h
    · rw [if_neg hdir] at h
      cases h

theorem walk_addDirs {locs : List (List N)} (hmissing : ∀ q ∈ locs, fs.node q = none) {fuel : Nat}
    {cs : List (Component N)} {loc : List N} {reached : List N × Nat} (h : fs.walk false fuel cs loc = .ok reached) :
    (fs.addDirs locs).walk false fuel cs loc = .ok reached := by
  induction fuel generalizing cs loc reached with
  | zero => exact walkFrom_addDirs hmissing (fun _ _ _ h => by cases h) cs h
  | succ fuel ih => exact walkFrom_addDirs hmissing (fun _ _ _ h => ih h) cs h

/-! ### Making directories -/

/-- Where the whole path is a directory, nothing is missing. -/
private theorem missingRev_of_isDir (cs : List (Component N)) (h : fs.isDir cs.reverse = true) :
    fs.missingRev cs = ([], true) := by
  induction cs with
  | nil => rfl
  | cons c cs ih =>
    rw [List.reverse_cons] at h
    have habove : fs.isDir cs.reverse = true := by
      cases hwhole : fs.resolve (cs.reverse ++ [c]) with
      | error e =>
        rw [isDir_false_of_error hwhole] at h
        cases h
      | ok loc => exact isDir_of_concat hwhole
    unfold missingRev
    rw [ih habove]
    dsimp only
    rw [addDirs_nil, List.reverse_cons]
    cases hmk : fs.mkdir (cs.reverse ++ [c]) with
    | error e =>
      dsimp only
      rw [h]
    | ok made =>
      rw [isDir_false_of_error (resolve_of_mkdir hmk)] at h
      cases h

/-- Where the path is blocked, by something which is no directory, nothing can be made. -/
private theorem missingRev_of_blocked (cs : List (Component N)) (hdir : fs.isDir cs.reverse = false)
    (hblocked : fs.resolve cs.reverse ≠ .error .notFound) : fs.missingRev cs = ([], false) := by
  induction cs with
  | nil =>
    have hroot : fs.isDir ([] : List (Component N)) = true := isDirAt_iff.2 fs.root
    rw [List.reverse_nil, hroot] at hdir
    cases hdir
  | cons c cs ih =>
    rw [List.reverse_cons] at hdir hblocked
    unfold missingRev
    by_cases habove : fs.isDir cs.reverse = true
    · rw [missingRev_of_isDir cs habove]
      dsimp only
      rw [addDirs_nil, List.reverse_cons]
      cases hmk : fs.mkdir (cs.reverse ++ [c]) with
      | error e =>
        dsimp only
        rw [hdir]
      | ok made => exact absurd (resolve_of_mkdir hmk) hblocked
    · rw [ih ((Bool.not_eq_true _).mp habove) fun hmissing => hblocked (resolve_concat_error hmissing c)]

private theorem ok_iff (whole : Bool) (e : Errno) :
    (if whole = true then (.ok () : Except Errno Unit) else .error e) = .ok () ↔ whole = true := by
  cases whole <;> simp

/-- `createRev` makes the directories which are missing from the left on, and succeeds where the whole path is there
in the end. -/
theorem createRev_eq (cs : List (Component N)) :
    (fs.createRev cs).2 = fs.addDirs (fs.missingRev cs).1 ∧
      ((fs.createRev cs).1 = .ok () ↔ (fs.missingRev cs).2 = true) := by
  -- the path is read from its last component, so the hypothesis is about the parent
  induction cs with
  | nil =>
    refine ⟨?_, ?_⟩
    · exact (addDirs_nil fs).symm
    · simp [createRev, missingRev]
  | cons c cs ih =>
    -- any other failure of mkdir ends the call before anything is made
    have hstuck : ∀ e, fs.mkdir (c :: cs).reverse = .error e → e ≠ .notFound →
        fs.missingRev (c :: cs) = ([], fs.isDir (c :: cs).reverse) := by
      intro e hmk hne
      by_cases habove : fs.isDir cs.reverse = true
      · unfold missingRev
        rw [missingRev_of_isDir cs habove]
        dsimp only
        rw [addDirs_nil, hmk]
      · have hfound : fs.resolve cs.reverse ≠ .error .notFound := by
          intro hmissing
          rw [List.reverse_cons, mkdir_concat, hmissing] at hmk
          cases hmk
          exact hne rfl
        have hwhole : fs.isDir (c :: cs).reverse = false := by
          by_contra hdir
          rw [Bool.not_eq_false, List.reverse_cons] at hdir
          cases hres : fs.resolve (cs.reverse ++ [c]) with
          | error e' =>
            rw [isDir_false_of_error hres] at hdir
            cases hdir
          | ok loc => exact habove (isDir_of_concat hres)
        unfold missingRev
        rw [missingRev_of_blocked cs ((Bool.not_eq_true _).mp habove) hfound, hwhole]
    unfold createRev
    cases hmk : fs.mkdir (c :: cs).reverse with
    | ok loc =>
      have habove : fs.isDir cs.reverse = true := by
        rw [List.reverse_cons] at hmk
        obtain ⟨above, name, habove, hdir, -⟩ := mkdir_ok hmk
        unfold isDir
        rw [habove]
        exact hdir
      unfold missingRev
      rw [missingRev_of_isDir cs habove]
      dsimp only
      rw [addDirs_nil, hmk]
      simp
    | error e =>
      -- only a missing parent is made first, and then mkdir is tried once more
      by_cases hmissing : e = .notFound
      · rw [hmissing]
        dsimp only
        obtain ⟨htree, hok⟩ := ih
        unfold missingRev
        rcases hcreate : fs.createRev cs with ⟨result, fs'⟩
        rcases hleft : fs.missingRev cs with ⟨locs, whole⟩
        rw [hcreate, hleft] at htree hok
        dsimp only at htree hok ⊢
        cases result with
        | error e' =>
          have hwhole : whole = false := by
            rw [← Bool.not_eq_true]
            exact fun h => by cases hok.2 h
          rw [hwhole]
          exact ⟨htree, by simp⟩
        | ok done =>
          have hwhole : whole = true := hok.1 rfl
          rw [hwhole, htree]
          dsimp only
          cases hagain : (fs.addDirs locs).mkdir (c :: cs).reverse with
          | ok loc =>
            dsimp only
            rw [addDirs_append]
            simp
          | error e' =>
            dsimp only
            exact ⟨rfl, ok_iff _ e'⟩
      · rw [hstuck e hmk hmissing]
        dsimp only
        cases e with
        | notFound => exact absurd rfl hmissing
        | notDir => exact ⟨(addDirs_nil fs).symm, ok_iff _ _⟩
        | loop => exact ⟨(addDirs_nil fs).symm, ok_iff _ _⟩
        | exist => exact ⟨(addDirs_nil fs).symm, ok_iff _ _⟩
        | isDir => exact ⟨(addDirs_nil fs).symm, ok_iff _ _⟩
        | invalid => exact ⟨(addDirs_nil fs).symm, ok_iff _ _⟩

theorem createDirAll_tree (fs : Tree N) (comps : List (Component N)) :
    (fs.createDirAll comps).2 = fs.addDirs (fs.missingDirs comps) :=
  (createRev_eq comps.reverse).1

private theorem mem_missingRev {cs : List (Component N)} {q : List N} (h : q ∈ (fs.missingRev cs).1) :
    fs.node q = none := by
  induction cs with
  | nil => cases h
  | cons c cs ih =>
    unfold missingRev at h
    rcases hleft : fs.missingRev cs with ⟨locs, _ | _⟩
    · rw [hleft] at h ih
      exact ih h
    · rw [hleft] at h ih
      dsimp only at h ih
      cases hmk : (fs.addDirs locs).mkdir (c :: cs).reverse with
      | error e =>
        rw [hmk] at h
        exact ih h
      | ok loc =>
        rw [hmk] at h
        rcases List.mem_append.1 h with hold | hnew
        · exact ih hold
        · rw [List.mem_singleton] at hnew
          rw [List.reverse_cons] at hmk
          obtain ⟨-, -, -, -, -, -, hnone⟩ := mkdir_ok hmk
          rw [node_addDirs] at hnone
          split at hnone
          · cases hnone
          · rw [hnew]
            exact hnone

/-- Directories are made where there was nothing. -/
theorem node_of_mem_missingDirs {comps : List (Component N)} {q : List N} (h : q ∈ fs.missingDirs comps) :
    fs.node q = none := mem_missingRev h

private theorem isDir_of_missingRev {cs : List (Component N)} (h : (fs.missingRev cs).2 = true) :
    (fs.addDirs (fs.missingRev cs).1).isDir cs.reverse = true := by
  cases cs with
  | nil => exact isDirAt_iff.2 (fs.addDirs [] ).root
  | cons c cs =>
    unfold missingRev at h ⊢
    rcases hleft : fs.missingRev cs with ⟨locs, _ | _⟩
    · rw [hleft] at h
      cases h
    · rw [hleft] at h
      dsimp only at h ⊢
      cases hmk : (fs.addDirs locs).mkdir (c :: cs).reverse with
      | error e =>
        rw [hmk] at h
        exact h
      | ok loc =>
        dsimp only
        rw [List.reverse_cons] at hmk ⊢
        obtain ⟨above, name, habove, hdir, rfl, rfl, hnone⟩ := mkdir_ok hmk
        have hfree : ∀ q ∈ [above ++ [name]], (fs.addDirs locs).node q = none := by
          intro q hq
          rw [List.mem_singleton.1 hq]
          exact hnone
        have hmade : (fs.addDirs (locs ++ [above ++ [name]])).node (above ++ [name]) = some .dir := by
          rw [node_addDirs, if_pos (List.mem_append_right _ (List.mem_singleton.2 rfl))]
        have hkept : (fs.addDirs (locs ++ [above ++ [name]])).isDirAt above = true := by
          rw [isDirAt_iff, addDirs_append, node_addDirs]
          split
          · rfl
          · exact isDirAt_iff.1 hdir
        cases hwalk : (fs.addDirs locs).walk false maxLinks cs.reverse [] with
        | error e =>
          unfold resolve at habove
          rw [hwalk] at habove
          cases habove
        | ok reached =>
          rw [resolve_of_walk hwalk] at habove
          cases habove
          -- the way to the parent is the same once the directory is there
          have hagain := walk_addDirs hfree hwalk
          rw [← addDirs_append] at hagain
          unfold isDir
          rw [resolve_concat, hagain]
          change (match ((fs.addDirs (locs ++ [reached.1 ++ [name]])).walk false reached.2 [.normal name] reached.1).map
            Prod.fst with
            | .ok loc => (fs.addDirs (locs ++ [reached.1 ++ [name]])).isDirAt loc
            | .error _ => false) = true
          rw [walk_eq]
          unfold walkFrom
          rw [if_pos hkept]
          dsimp only
          rw [hmade]
          exact isDirAt_iff.2 hmade

/-- Where it succeeds, the whole path is a directory. -/
theorem isDir_of_createDirAll {comps : List (Component N)} (h : (fs.createDirAll comps).1 = .ok ()) :
    (fs.createDirAll comps).2.isDir comps = true := by
  have hwhole := isDir_of_missingRev ((createRev_eq comps.reverse).2.1 h)
  rw [List.reverse_reverse] at hwhole
  rw [createDirAll_tree]
  exact hwhole

end Tree

end FileTree
