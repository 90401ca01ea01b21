import Mathlib.Data.Vector.Basic
import Directswarm.Text

/-!
The resume sidecar (`resume.rs`): three lines of text that name the root of a
fetch and the offset up to which its output is verified. A sidecar is written by
truncating the file first, so a reader may find any prefix of the text; what it
reads there names the same root and no greater offset (`parse_prefix`), or
nothing. The whole text reads as the state it was written for (`parse_render`).
-/
namespace Directswarm.Resume
open Directswarm.Text

/-- A reference of 32 bytes. -/
abbrev Root := List.Vector Byte 32

/-- `ResumeState`. -/
structure ResumeState where
  root : Root
  offset : Nat
  offset_lt : offset < 2 ^ 64
  deriving DecidableEq

/-- `MAGIC`. -/
def magic : List Char := "directswarm-resume v1".toList

/-- `ResumeState::render`. -/
def render (state : ResumeState) : List Char :=
  magic ++ '\n' :: ("root=".toList ++ hexOf state.root.toList ++ '\n' ::
    ("offset=".toList ++ decimal state.offset ++ ['\n']))

/-- What follows a prefix. -/
def stripPrefix (lead cs : List Char) : Option (List Char) := if lead <+: cs then some (cs.drop lead.length) else none

/-- `parse_hex32`. -/
def parseHex32 (cs : List Char) : Option Root :=
  if cs.length = 64 then (parseHex cs).bind fun bytes =>
    if length : bytes.length = 32 then some ⟨bytes,length⟩ else none
  else none

/-- `ResumeState::parse`. -/
def parse (text : List Char) : Option ResumeState :=
  match lines text with
  | first :: second :: third :: _ =>
    if first ≠ magic then none else
    ((stripPrefix "root=".toList second).bind parseHex32).bind fun root =>
      match read : (stripPrefix "offset=".toList third).bind (parseUnsigned 64) with
      | none => none
      | some offset => some ⟨root,offset,by
          obtain ⟨digits,-,parsed⟩ := Option.bind_eq_some_iff.mp read
          exact parseUnsigned_lt parsed⟩
  | _ => none

theorem stripPrefix_append (lead rest : List Char) : stripPrefix lead (lead ++ rest) = some rest := by
  simp [stripPrefix]

theorem parseHex32_hexOf (root : Root) : parseHex32 (hexOf root.toList) = some root := by
  have length : (hexOf root.toList).length = 64 := by rw [hexOf_length,root.toList_length]
  rw [parseHex32,if_pos length,parseHex_hexOf,Option.bind_some,dif_pos root.toList_length]
  exact congrArg some (List.Vector.eq _ _ rfl)

/-! ### Reading a text that was cut -/

private theorem magic_line : '\n' ∉ magic ∧ magic.getLast? ≠ some '\r' := by decide

/-- The line of the root. -/
def rootLine (root : Root) : List Char := "root=".toList ++ hexOf root.toList

theorem rootLine_eq (root : Root) : rootLine root = "root=".toList ++ hexOf root.toList := by
  delta rootLine
  rfl

/-- The line of the offset. -/
def offsetLine (offset : Nat) : List Char := "offset=".toList ++ decimal offset

theorem offsetLine_eq (offset : Nat) : offsetLine offset = "offset=".toList ++ decimal offset := by
  delta offsetLine
  rfl

private theorem offsetLine_line (offset : Nat) :
    '\n' ∉ offsetLine offset ∧ (offsetLine offset).getLast? ≠ some '\r' := by
  obtain ⟨noFeed,noReturn⟩ := decimal_no_break offset
  constructor
  · simp [offsetLine_eq,noFeed]
  · intro last
    have member := List.mem_of_getLast? last
    simp [offsetLine_eq,noReturn] at member

private theorem rootLine_line (root : Root) : '\n' ∉ rootLine root ∧ (rootLine root).getLast? ≠ some '\r' := by
  obtain ⟨noFeed,noReturn⟩ := hexOf_no_break root.toList
  constructor
  · simp [rootLine_eq,noFeed]
  · intro last
    have member := List.mem_of_getLast? last
    simp [rootLine_eq,noReturn] at member

/-- The third line of a sidecar whose first two are whole. -/
theorem parse_third (root : Root) (tail : List Char) {state : ResumeState}
    (read : parse (magic ++ '\n' :: (rootLine root ++ '\n' :: tail)) = some state) :
    ∃ third more, lines tail = third :: more ∧ state.root = root ∧
      (stripPrefix "offset=".toList third).bind (parseUnsigned 64) = some state.offset := by
  unfold parse at read
  rw [lines_cons magic_line.1 magic_line.2,lines_cons (rootLine_line root).1 (rootLine_line root).2] at read
  cases split : lines tail with
  | nil => simp [split] at read
  | cons third more =>
    simp only [split,ne_eq,not_true_eq_false,↓reduceIte,rootLine_eq,stripPrefix_append,Option.bind_some,
      parseHex32_hexOf] at read
    split at read
    · cases read
    · rename_i offset parsed
      cases read
      exact ⟨third,more,rfl,rfl,parsed⟩

/-- A third line that was cut reads as nothing, or as no greater offset. -/
theorem offset_prefix {third : List Char} {offset m : Nat} (cut : third <+: "offset=".toList ++ decimal offset)
    (read : (stripPrefix "offset=".toList third).bind (parseUnsigned 64) = some m) : m ≤ offset := by
  obtain ⟨digits,stripped,parsed⟩ := Option.bind_eq_some_iff.mp read
  unfold stripPrefix at stripped
  by_cases leads : "offset=".toList <+: third
  · rw [if_pos leads] at stripped
    obtain ⟨rest,rfl⟩ := leads
    simp only [List.drop_left,Option.some.injEq] at stripped
    subst stripped
    exact parseUnsigned_prefix ((List.prefix_append_right_inj _).mp cut) parsed
  · rw [if_neg leads] at stripped; cases stripped

/-- A sidecar that was cut names nothing, or the same root and no greater offset. -/
theorem parse_prefix {state found : ResumeState} {text : List Char} (cut : text <+: render state)
    (read : parse text = some found) : found.root = state.root ∧ found.offset ≤ state.offset := by
  have short : ∀ {cs : List Char}, (∀ first second third more, lines cs ≠ first :: second :: third :: more) →
      parse cs ≠ some found := by
    intro cs few got
    unfold parse at got
    split at got
    · rename_i split; exact few _ _ _ _ split
    · cases got
  have bareMagic : ∀ {cs : List Char}, cs <+: magic → '\n' ∉ cs := fun cut member => magic_line.1 (cut.subset member)
  have bareRoot : ∀ {cs : List Char}, cs <+: rootLine state.root → '\n' ∉ cs :=
    fun cut member => (rootLine_line state.root).1 (cut.subset member)
  rcases prefix_cases cut with inFirst | ⟨afterFirst,rfl,onward⟩
  · refine absurd read (short fun _ _ _ _ => ?_)
    rw [lines_last (bareMagic inFirst)]; split <;> simp
  · rcases prefix_cases (show afterFirst <+: rootLine state.root ++ '\n' ::
        ("offset=".toList ++ decimal state.offset ++ ['\n']) from onward) with inSecond | ⟨afterSecond,rfl,beyond⟩
    · refine absurd read (short fun _ _ _ _ => ?_)
      rw [lines_cons magic_line.1 magic_line.2,lines_last (bareRoot inSecond)]; split <;> simp
    · obtain ⟨third,more,split,root,offset⟩ := parse_third state.root afterSecond read
      refine ⟨root,?_⟩
      obtain ⟨bare,ended⟩ := offsetLine_line state.offset
      rw [offsetLine_eq] at bare ended
      rcases prefix_cases beyond with inThird | ⟨rest,rfl,-⟩
      · rw [lines_last fun member => bare (inThird.subset member)] at split
        by_cases empty : afterSecond = []
        · rw [if_pos empty] at split; cases split
        · rw [if_neg empty] at split
          cases split
          exact offset_prefix inThird offset
      · rw [lines_cons bare ended] at split
        cases split
        exact offset_prefix (List.prefix_refl _) offset

/-- A sidecar that was written whole reads as its state. -/
theorem parse_render (state : ResumeState) : parse (render state) = some state := by
  have text : render state =
      magic ++ '\n' :: (rootLine state.root ++ '\n' :: (offsetLine state.offset ++ '\n' :: [])) := by
    rw [rootLine_eq,offsetLine_eq]; rfl
  have number : (stripPrefix "offset=".toList (offsetLine state.offset)).bind (parseUnsigned 64) = some state.offset := by
    rw [offsetLine_eq,stripPrefix_append,Option.bind_some]
    exact parseUnsigned_decimal state.offset_lt
  unfold parse
  rw [text,lines_cons magic_line.1 magic_line.2,lines_cons (rootLine_line state.root).1 (rootLine_line state.root).2,
    lines_cons (offsetLine_line state.offset).1 (offsetLine_line state.offset).2]
  simp only [ne_eq,not_true_eq_false,↓reduceIte,rootLine_eq,stripPrefix_append,Option.bind_some,parseHex32_hexOf]
  split
  · rename_i none_; rw [number] at none_; cases none_
  · rename_i offset some_
    rw [number] at some_
    cases some_
    rfl

/-- Whatever is left of a sidecar is no danger, and all of it is the state. -/
theorem torn_harmless (state : ResumeState) (text : List Char) (cut : text <+: render state) :
    (parse text = none ∨
      ∃ found, parse text = some found ∧ found.root = state.root ∧ found.offset ≤ state.offset) ∧
    parse (render state) = some state := by
  refine ⟨?_,parse_render state⟩
  cases read : parse text with
  | none => exact .inl rfl
  | some found =>
    have kept := parse_prefix cut read
    exact .inr ⟨found,rfl,kept⟩

/-- The state of a fetch whose output is verified up to its byte 123. -/
def early : ResumeState := ⟨List.Vector.replicate 32 0,123,by decide⟩

/-- The sidecar without its last two characters. -/
theorem torn_harmless_early :
    (parse ((render early).take 101) = none ∨
      ∃ found, parse ((render early).take 101) = some found ∧ found.root = early.root ∧ found.offset ≤ early.offset) ∧
    parse (render early) = some early :=
  torn_harmless early _ (List.take_prefix 101 _)

/-- The offset reads as another one there. -/
example : (parse ((render early).take 101)).map ResumeState.offset = some 12 := by decide +kernel

end Directswarm.Resume
