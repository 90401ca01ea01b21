import Mathlib.Data.List.Basic
import Mathlib.Tactic.Common
import Directswarm.Runs

/-!
Files at the level of their inodes. `Replacing` is a file that is replaced as a
whole: a temporary name is created, written through a handle and renamed over the
path. Two writers that share the temporary name share its inode, so what one of
them has written can be cut by the other, and a renamed file can still grow.
The path and the temporary name never mean the same inode, which is what makes
the path safe from a writer that works alone (`read_create`, `read_poke`).
-/
namespace Directswarm.Files
open Directswarm.Runs

universe u
variable {C : Type u}

/-- Writing at an offset: what was there is overwritten, a gap is filled. -/
def poke (fill : C) (content : List C) (pos : Nat) (chunk : List C) : List C :=
  content.take pos ++ List.replicate (pos - content.length) fill ++ chunk ++ content.drop (pos + chunk.length)

/-- Writing at the end appends. -/
theorem poke_end (fill : C) (content chunk : List C) : poke fill content content.length chunk = content ++ chunk := by
  have past : content.drop (content.length + chunk.length) = [] := List.drop_eq_nil_of_le (by omega)
  simp [poke,past]

/-- Cutting or extending to a length. -/
def setLen (fill : C) (content : List C) (length : Nat) : List C :=
  content.take length ++ List.replicate (length - content.length) fill

theorem setLen_length (fill : C) (content : List C) (length : Nat) : (setLen fill content length).length = length := by
  simp only [setLen,List.length_append,List.length_take,List.length_replicate]; omega

theorem setLen_cut (fill : C) {content : List C} {length : Nat} (inside : length ≤ content.length) :
    setLen fill content length = content.take length := by
  simp [setLen,Nat.sub_eq_zero_of_le inside]

/-! ### A path and its temporary name -/

/-- A path and a temporary name, each of which may name an inode. -/
structure Replacing (C : Type u) where
  inodes : List (List C)
  path : Option Nat
  tmp : Option Nat
  path_lt : ∀ i ∈ path, i < inodes.length
  tmp_lt : ∀ i ∈ tmp, i < inodes.length
  apart : ∀ i ∈ path, i ∉ tmp

namespace Replacing

/-- What the path holds. -/
def read (fs : Replacing C) : Option (List C) := fs.path.bind fun i => fs.inodes[i]?

/-- What an inode holds. -/
def content (fs : Replacing C) (i : Nat) : List C := (fs.inodes[i]?).getD []

/-- A path that holds a text, and no temporary name. -/
def holding : Option (List C) → Replacing C
  | none => ⟨[],none,none,by simp,by simp,by simp⟩
  | some text => ⟨[text],some 0,none,by simp,by simp,by simp⟩

theorem read_holding (text : Option (List C)) : (holding text).read = text := by
  cases text <;> rfl

/-- `File::create` of the temporary name: an existing inode is emptied. -/
def create (fs : Replacing C) : Replacing C × Nat :=
  match named : fs.tmp with
  | some i => (⟨fs.inodes.set i [],fs.path,some i,by simpa using fs.path_lt,
      by simpa [named] using fs.tmp_lt,by simpa [named] using fs.apart⟩,i)
  | none => (⟨fs.inodes ++ [[]],fs.path,some fs.inodes.length,
      fun i member => by have := fs.path_lt i member; simp only [List.length_append]; omega,
      by simp,fun i member same => by
        have inside := fs.path_lt i member
        simp only [Option.mem_def,Option.some.injEq] at same
        omega⟩,fs.inodes.length)

/-- Writing through a handle, at an offset. -/
def pokeAt (fill : C) (fs : Replacing C) (i pos : Nat) (chunk : List C) : Replacing C :=
  ⟨fs.inodes.set i (poke fill (fs.content i) pos chunk),fs.path,fs.tmp,
    by simpa using fs.path_lt,by simpa using fs.tmp_lt,fs.apart⟩

/-- Renaming the temporary name over the path. It fails where there is none. -/
def rename (fs : Replacing C) : Option (Replacing C) :=
  match named : fs.tmp with
  | none => none
  | some i => some ⟨fs.inodes,some i,none,fun j same => by
      cases same; exact fs.tmp_lt i (by simp [named]),by simp,by simp⟩

theorem create_tmp (fs : Replacing C) : fs.create.1.tmp = some fs.create.2 := by
  unfold create; split <;> rfl

theorem content_create (fs : Replacing C) : fs.create.1.content fs.create.2 = [] := by
  unfold create
  split
  · rename_i i named
    simp [content,fs.tmp_lt i (by simp [named])]
  · simp [content]

/-- The path holds the same as long as its inode does. -/
theorem read_congr {fs next : Replacing C} (path : next.path = fs.path)
    (same : ∀ j, fs.path = some j → next.inodes[j]? = fs.inodes[j]?) : next.read = fs.read := by
  unfold read
  rw [path]
  cases at_ : fs.path with
  | none => rfl
  | some j => exact same j at_

theorem read_create (fs : Replacing C) : fs.create.1.read = fs.read := by
  unfold create
  split
  · rename_i i named
    refine read_congr rfl fun j at_ => ?_
    have other : i ≠ j := fun same => fs.apart j (by simp [at_]) (by simp [named,same])
    exact List.getElem?_set_ne other
  · refine read_congr rfl fun j at_ => ?_
    exact List.getElem?_append_left (fs.path_lt j (by simp [at_]))

theorem read_pokeAt {fill : C} {fs : Replacing C} {i pos : Nat} {chunk : List C} (named : fs.tmp = some i) :
    (fs.pokeAt fill i pos chunk).read = fs.read := by
  refine read_congr rfl fun j at_ => ?_
  have other : i ≠ j := fun same => fs.apart j (by simp [at_]) (by simp [named,same])
  exact List.getElem?_set_ne other

theorem content_pokeAt {fill : C} {fs : Replacing C} {i pos : Nat} {chunk : List C} (named : fs.tmp = some i) :
    (fs.pokeAt fill i pos chunk).content i = poke fill (fs.content i) pos chunk := by
  have inside := fs.tmp_lt i (by simp [named])
  simp [pokeAt,content,inside]

theorem rename_named {fs : Replacing C} {i : Nat} (named : fs.tmp = some i) : ∃ next, fs.rename = some next := by
  unfold rename
  split
  · rename_i none_; rw [named] at none_; cases none_
  · exact ⟨_,rfl⟩

/-- A rename makes the path hold what the temporary name held. -/
theorem read_rename {fs next : Replacing C} {i : Nat} (named : fs.tmp = some i) (renamed : fs.rename = some next) :
    next.read = some (fs.content i) := by
  have inside := fs.tmp_lt i (by simp [named])
  unfold rename at renamed
  split at renamed
  · cases renamed
  · rename_i j at_
    have same : i = j := by simpa [named] using at_
    subst same
    cases renamed
    simp [read,content,inside]

end Replacing

/-! ### Replacing a file as a whole -/

/-- Where a save of a text stands. -/
inductive Saving (C : Type u)
  /-- `create_dir_all` is next. -/
  | directory (text : List C)
  /-- `File::create` is next. -/
  | creating (text : List C)
  /-- The text goes out through the handle, at an offset. -/
  | writing (text : List C) (inode pos : Nat) (rest : List C)
  /-- `sync_all` is next. -/
  | syncing (text : List C)
  /-- `rename` is next. -/
  | synced (text : List C)
  | finished (ok : Bool)
  deriving DecidableEq

/-- What moves a save: a file operation succeeds or fails, or some of the text
    reaches the file. -/
inductive SaveAct
  | io (ok : Bool)
  | land (more : Nat)
  deriving DecidableEq

/-- One step of a save. -/
def saveStep (fill : C) (fs : Replacing C) : Saving C → SaveAct → Option (Replacing C × Saving C)
  | .directory text, .io true => some (fs,.creating text)
  | .creating text, .io true => some (fs.create.1,.writing text fs.create.2 0 text)
  | .writing text inode pos (c :: rest), .land more =>
    let piece := (c :: rest).take (more + 1)
    some (fs.pokeAt fill inode pos piece,.writing text inode (pos + piece.length) ((c :: rest).drop (more + 1)))
  | .writing text _ _ [], .io true => some (fs,.syncing text)
  | .syncing text, .io true => some (fs,.synced text)
  | .synced _, .io true =>
    match fs.rename with
    | some renamed => some (renamed,.finished true)
    | none => some (fs,.finished false)
  | .directory _, .io false | .creating _, .io false | .writing _ _ _ _, .io false | .syncing _, .io false
  | .synced _, .io false => some (fs,.finished false)
  | _, _ => none

/-- What a save that works alone has done so far: a finished one left its text
    under the path. -/
def Stands (fs : Replacing C) (text : List C) : Saving C → Prop
  | .directory t | .creating t => t = text
  | .writing t inode pos rest => t = text ∧ fs.tmp = some inode ∧ pos = (fs.content inode).length ∧
      fs.content inode ++ rest = text
  | .syncing t | .synced t => t = text ∧ ∃ inode, fs.tmp = some inode ∧ fs.content inode = text
  | .finished true => fs.read = some text
  | .finished false => True

/-- A save that works alone keeps to its text, touches the path only by its
    rename, and fails only where an operation does. -/
theorem save_step {fill : C} {fs next : Replacing C} {text : List C} {saving moved : Saving C} {act : SaveAct}
    (stands : Stands fs text saving) (taken : saveStep fill fs saving act = some (next,moved)) :
    Stands next text moved ∧ (moved = .finished false → act = .io false) ∧
      (moved ≠ .finished true → next.read = fs.read) := by
  cases saving with
  | directory t =>
    cases act with
    | land more => cases taken
    | io ok => cases ok <;> cases taken <;> simp_all [Stands]
  | creating t =>
    cases act with
    | land more => cases taken
    | io ok =>
      cases ok with
      | false => cases taken; simp [Stands]
      | true =>
        cases taken
        subst stands
        exact ⟨⟨rfl,fs.create_tmp,by rw [fs.content_create]; rfl,by rw [fs.content_create]; rfl⟩,nofun,
          fun _ => fs.read_create⟩
  | writing t inode pos rest =>
    obtain ⟨rfl,named,position,sofar⟩ := stands
    cases act with
    | land more =>
      cases rest with
      | nil => cases taken
      | cons c rest =>
        cases taken
        refine ⟨⟨rfl,named,?_,?_⟩,nofun,fun _ => Replacing.read_pokeAt named⟩
        · rw [Replacing.content_pokeAt named,position,poke_end,List.length_append]
        · rw [Replacing.content_pokeAt named,position,poke_end,List.append_assoc,List.take_append_drop]
          exact sofar
    | io ok =>
      cases ok with
      | false => cases rest <;> cases taken <;> simp [Stands]
      | true =>
        cases rest with
        | cons c rest => cases taken
        | nil =>
          cases taken
          exact ⟨⟨rfl,inode,named,by simpa using sofar⟩,nofun,fun _ => rfl⟩
  | syncing t =>
    cases act with
    | land more => cases taken
    | io ok => cases ok <;> cases taken <;> simp_all [Stands]
  | synced t =>
    obtain ⟨rfl,inode,named,holds⟩ := stands
    cases act with
    | land more => cases taken
    | io ok =>
      cases ok with
      | false => cases taken; simp [Stands]
      | true =>
        obtain ⟨renamed,done⟩ := Replacing.rename_named named
        simp only [saveStep,done] at taken
        cases taken
        exact ⟨by rw [Stands,Replacing.read_rename named done,holds],nofun,fun other => absurd rfl other⟩
  | finished ok => cases act <;> cases taken

/-- The operations of a save of a text that goes out in one piece. -/
def savedWhole (text : List C) : List SaveAct :=
  [.io true,.io true,.land text.length,.io true,.io true,.io true]

/-- A save that works alone can finish. -/
theorem save_alone (fill : C) (fs : Replacing C) {text : List C} (some_ : text ≠ []) :
    ∃ next, run (fun state act => saveStep fill state.1 state.2 act) (fs,.directory text) (savedWhole text) =
      some (next,.finished true) ∧ next.read = some text := by
  obtain ⟨c,rest,rfl⟩ := List.exists_cons_of_ne_nil some_
  have named : (fs.create.1.pokeAt fill fs.create.2 0 (c :: rest)).tmp = some fs.create.2 := fs.create_tmp
  obtain ⟨next,renamed⟩ := Replacing.rename_named named
  have whole : (c :: rest).take ((c :: rest).length + 1) = c :: rest := List.take_of_length_le (by omega)
  have nothing : (c :: rest).drop ((c :: rest).length + 1) = [] := List.drop_of_length_le (by omega)
  have reached : run (fun (state : Replacing C × Saving C) act => saveStep fill state.1 state.2 act)
      (fs,.directory (c :: rest)) (savedWhole (c :: rest)) = some (next,.finished true) := by
    simp only [savedWhole,run_cons,saveStep,Option.bind_some,whole,nothing,renamed,run_nil]
  refine ⟨next,reached,?_⟩
  have keep : ∀ (state : Replacing C × Saving C) (act : SaveAct) (after : Replacing C × Saving C),
      Stands state.1 (c :: rest) state.2 → saveStep fill state.1 state.2 act = some after →
        Stands after.1 (c :: rest) after.2 := fun _ _ _ stands taken => (save_step stands taken).1
  exact run_invariant keep (show Stands fs (c :: rest) (.directory (c :: rest)) from rfl) reached

end Directswarm.Files
