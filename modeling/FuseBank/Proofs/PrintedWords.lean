import FuseBank.Proofs.ToolLaunches

/-!
What the tool prints can be read back. The words of a command's lines have eight digits each and a line
of a dump starts with its byte offset, so the numbers behind the lines are given by the lines alone
(`wordOf?_markedWord`, `dumpLines_read`). Read so, the three commands that read agree on every image
(`read_commands_agree`).
-/

namespace FuseBank.Cli

def digits? (cs : List Char) : Option Word :=
  if cs.length = 8 then (Text.Hex.value? cs).map (BitVec.ofNat 32) else none

def wordOf? (line : String) : Option Word :=
  match line.toList with
  | '0' :: 'x' :: cs => digits? cs
  | _ => none

def words? : List Char → Option (List Word)
  | [] => some []
  | ' ' :: a :: b :: c :: d :: e :: f :: g :: h :: rest => do
    let word ← digits? [a, b, c, d, e, f, g, h]
    let words ← words? rest
    return word :: words
  | _ => none

def lineOf? (line : String) : Option (Nat × List Word) :=
  match line.toList with
  | a :: b :: ':' :: cs => do
    let offset ← Text.Hex.value? [a, b]
    let words ← words? cs
    return (offset, words)
  | _ => none

theorem digits?_fixed (w : Word) : digits? (Text.Hex.fixed 8 w.toNat) = some w := by
  have small : w.toNat % Nat.pow 16 8 = w.toNat := Nat.mod_eq_of_lt w.isLt
  unfold digits?
  rw [if_pos (Text.Hex.length_fixed 8 _), Text.Hex.value?_fixed, small, Option.map_some,
    BitVec.ofNat_toNat, BitVec.setWidth_eq]

theorem wordOf?_markedWord (w : Word) : wordOf? (Text.Hex.markedWord w) = some w := by
  have cs : (Text.Hex.markedWord w).toList = '0' :: 'x' :: Text.Hex.fixed 8 w.toNat := by
    simp [Text.Hex.markedWord, Text.Hex.word]
  unfold wordOf?
  rw [cs]
  exact digits?_fixed w

theorem words?_cons {cs : List Char} (length : cs.length = 8) (rest : List Char) :
    words? (' ' :: cs ++ rest) = (do
      let word ← digits? cs
      let words ← words? rest
      return word :: words) := by
  match cs, length with
  | [_, _, _, _, _, _, _, _], _ => rfl

theorem words?_printed (ws : List Word) :
    words? (ws.flatMap fun w => ' ' :: Text.Hex.fixed 8 w.toNat) = some ws := by
  induction ws with
  | nil => rfl
  | cons w ws ih =>
    rw [List.flatMap_cons, words?_cons (Text.Hex.length_fixed 8 _), digits?_fixed, ih]
    rfl

theorem toList_join (ws : List Word) :
    (String.join (ws.map fun w => " " ++ Text.Hex.word w)).toList =
      ws.flatMap fun w => ' ' :: Text.Hex.fixed 8 w.toNat := by
  rw [String.toList_join]
  simp [List.flatMap, Function.comp_def, Text.Hex.word]

theorem lineOf?_printed {offset : Nat} (small : offset < 256) (ws : List Word) :
    lineOf? (Text.Hex.pair offset ++ ":" ++ String.join (ws.map fun w => " " ++ Text.Hex.word w)) =
      some (offset, ws) := by
  have pair : (Text.Hex.pair offset).toList = Text.Hex.fixed 2 offset := by
    unfold Text.Hex.pair
    rw [if_pos small, String.toList_ofList]
  obtain ⟨a, b, two⟩ : ∃ a b, Text.Hex.fixed 2 offset = [a, b] := ⟨_, _, rfl⟩
  have value : Text.Hex.value? [a, b] = some offset := by
    rw [← two, Text.Hex.value?_fixed]
    exact congrArg some (Nat.mod_eq_of_lt small)
  have cs : (Text.Hex.pair offset ++ ":" ++
      String.join (ws.map fun w => " " ++ Text.Hex.word w)).toList =
      a :: b :: ':' :: ws.flatMap fun w => ' ' :: Text.Hex.fixed 8 w.toNat := by
    rw [String.toList_append, String.toList_append, pair, two, toList_join]
    rfl
  unfold lineOf?
  rw [cs]
  change (do
    let offset ← Text.Hex.value? [a, b]
    let words ← words? (ws.flatMap fun w : Word => ' ' :: Text.Hex.fixed 8 w.toNat)
    return (offset, words)) = _
  rw [value, words?_printed]
  rfl

theorem dumpLines_append (line : Nat) (chunk rest : List Word)
    (length : chunk.length = Command.wordsPerLine) :
    Command.dumpLines line ((chunk ++ rest).flatMap Word.toBytes) =
      Command.dumpLine line chunk :: Command.dumpLines (line + 1) (rest.flatMap Word.toBytes) := by
  have bytes : (chunk.flatMap Word.toBytes).length = Command.bytesPerLine := by
    rw [Word.length_flatMap_toBytes, length]
    rfl
  have some_bytes : ¬ (chunk.flatMap Word.toBytes ++ rest.flatMap Word.toBytes).isEmpty = true := by
    intro none
    have zero := List.append_eq_nil_iff.1 (List.isEmpty_iff.1 none)
    rw [zero.1] at bytes
    cases bytes
  rw [List.flatMap_append, Command.dumpLines, if_neg some_bytes, List.take_left' bytes,
    List.drop_left' bytes, Word.listOfBytes_flatMap_toBytes]

theorem dumpLines_read (line count : Nat) (ws : List Word) (length : ws.length = 4 * count)
    (few : line + count ≤ 16) : ∃ lines : List (Nat × List Word),
    (Command.dumpLines line (ws.flatMap Word.toBytes)).map lineOf? = lines.map some ∧
    lines.map Prod.fst = (List.range' line count).map (16 * ·) ∧
    (∀ x ∈ lines, x.2.length = 4) ∧ lines.flatMap Prod.snd = ws := by
  induction count generalizing line ws with
  | zero =>
    rw [List.eq_nil_of_length_eq_zero length]
    refine ⟨[], ?_, rfl, nofun, rfl⟩
    rw [List.flatMap_nil, Command.dumpLines]
    rfl
  | succ count ih =>
    match ws, length with
    | a :: b :: c :: d :: rest, length =>
      have shorter : rest.length = 4 * count := by
        simp only [List.length_cons] at length
        omega
      obtain ⟨lines, read, offsets, four, words⟩ := ih (line + 1) rest shorter (by omega)
      have offset : line * Command.bytesPerLine = 16 * line := Nat.mul_comm _ _
      have small : 16 * line < 256 := by omega
      have first := lineOf?_printed small [a, b, c, d]
      refine ⟨(16 * line, [a, b, c, d]) :: lines, ?_, ?_, ?_, ?_⟩
      · have chunk := dumpLines_append line [a, b, c, d] rest rfl
        rw [List.cons_append, List.cons_append, List.cons_append, List.cons_append, List.nil_append] at chunk
        rw [chunk, List.map_cons, read, Command.dumpLine, offset, first]
        rfl
      · rw [List.map_cons, offsets, List.range'_succ]
        rfl
      · exact List.forall_mem_cons.2 ⟨rfl, four⟩
      · rw [List.flatMap_cons, words]
        rfl

variable {W : Type} [Host (StateM W)] {file : W → Option (List Byte)}

/-- A launch of a command on an image file, with a configuration that is valid. -/
structure Launch.Serves (l : Launch W) (file : W → Option (List Byte)) (image : List Byte)
    (command : Command) : Prop where
  emulates : l.Emulates file
  found : l.found file = some image
  configured : ∃ config, l.config = .ok config
  asked : l.invocation.command = command

theorem Launch.Serves.shows {l : Launch W} {image : List Byte} {command : Command}
    (serves : l.Serves file image command) (size : image.length = FuseMacro.imageBytes)
    (idle : ∀ enabled, command.burns? enabled = none) {texts : List String}
    (answer : ∀ enabled, command.answer enabled (Rows.ofImage (some image)) = .ok texts) :
    l.outcome.texts = texts ∧ l.outcome.exitStatus = 0 ∧ l.left file = some image := by
  obtain ⟨emulates, found, ⟨config, configured⟩, rfl⟩ := serves
  have sized : ∀ bytes ∈ l.found file, bytes.length = FuseMacro.imageBytes := by
    rw [found]
    rintro _ ⟨⟩
    exact size
  obtain ⟨shown, -, left⟩ := launch_served configured emulates sized
  rw [found, answer] at shown
  obtain ⟨texts, result⟩ := Prod.mk.inj shown
  refine ⟨texts, ?_, ?_⟩
  · unfold Outcome.exitStatus
    rw [result]
  · rw [left, Command.rowsAfter, idle, found]
    exact congrArg some (Rows.bytes_ofImage size)

section

variable {image : List Byte} (size : image.length = FuseMacro.imageBytes)
include size

theorem read_shows {l : Launch W} (w : Fin 64)
    (serves : l.Serves file image (.read (BitVec.ofNat 32 (4 * w.val)))) :
    l.outcome.texts = [Text.Hex.markedWord ((Rows.ofImage (some image)).words.get w)] ∧
      l.outcome.exitStatus = 0 ∧ l.left file = some image := by
  refine serves.shows size (fun _ => rfl) fun _ => ?_
  have place : (BitVec.ofNat 32 (4 * w.val)).toNat = 4 * w.val := by
    rw [BitVec.toNat_ofNat]
    omega
  have valid : Controller.ValidAddress (BitVec.ofNat 32 (4 * w.val)) := by
    unfold Controller.ValidAddress fuseBytes
    omega
  have word : Fin.ofNat 64 ((BitVec.ofNat 32 (4 * w.val)).toNat / 4) = w := by
    apply Fin.ext
    rw [place]
    change 4 * w.val / 4 % 64 = w.val
    omega
  unfold Command.answer
  dsimp only
  rw [if_pos valid, word]

theorem readRow_shows {l : Launch W} (i : Fin 128) {margin : Bool}
    (serves : l.Serves file image (.readRow (BitVec.ofNat 32 i.val) margin)) :
    l.outcome.texts = [Text.Hex.markedWord ((Rows.ofImage (some image)).get i)] ∧
      l.outcome.exitStatus = 0 ∧ l.left file = some image := by
  refine serves.shows size (fun _ => rfl) fun _ => ?_
  have place : (BitVec.ofNat 32 i.val).toNat = i.val := by
    rw [BitVec.toNat_ofNat]
    omega
  have inside : ¬ (BitVec.ofNat 32 i.val).toNat ≥ fuseRows := by
    unfold fuseRows
    omega
  have row : Address.readRow (BitVec.ofNat 32 i.val) = i := by
    apply Fin.ext
    change (BitVec.ofNat 32 i.val).toNat % 128 = i.val
    omega
  unfold Command.answer
  dsimp only
  rw [if_neg inside, row]

theorem dump_shows {l : Launch W} (serves : l.Serves file image .dump) :
    l.outcome.texts = Command.dumpLines 0 (fuseSpace (Rows.ofImage (some image)).words) ∧
      l.outcome.exitStatus = 0 ∧ l.left file = some image :=
  serves.shows size (fun _ => rfl) fun _ => rfl

theorem toBytes_ofImage (i : Nat) (bound : 2 * i + 1 < 128) :
    ((Rows.ofImage (some image)).get ⟨2 * i, by omega⟩).toBytes ++
      ((Rows.ofImage (some image)).get ⟨2 * i + 1, bound⟩).toBytes = (image.drop (8 * i)).take 8 := by
  generalize rows_eq : Rows.ofImage (some image) = rows
  have whole : rows.toList.flatMap Word.toBytes = image := by
    rw [← rows_eq]
    exact Rows.bytes_ofImage size
  have length : rows.toList.length = 128 := Vector.length_toList
  have pair : (rows.toList.drop (2 * i)).take 2 = [rows[2 * i], rows[2 * i + 1]] := by
    rw [List.drop_eq_getElem_cons (by omega), List.drop_eq_getElem_cons (by omega)]
    rfl
  have bytes : 8 * i = 4 * (2 * i) := by omega
  rw [bytes, ← whole, ← Word.flatMap_toBytes_drop]
  change _ = List.take (4 * 2) _
  rw [← Word.flatMap_toBytes_take, pair]
  rfl

end

/-- On every image of full size, whatever the configurations: the word that `read` prints is the join of
the two rows that physical reads print, with a margin or without; a dump is sixteen lines with their byte
offsets and four words each, and shows that word in its place; and the printed rows are the bytes of the
image. The launches succeed and leave the image as it is. -/
theorem read_commands_agree {image : List Byte}
    (size : image.length = FuseMacro.imageBytes) (w : Fin 64) {margin margin' : Bool}
    {read low high dump : Launch W}
    (reads : read.Serves file image (.read (BitVec.ofNat 32 (4 * w.val))))
    (readsLow : low.Serves file image (.readRow (BitVec.ofNat 32 (2 * w.val)) margin))
    (readsHigh : high.Serves file image (.readRow (BitVec.ofNat 32 (2 * w.val + 1)) margin'))
    (dumps : dump.Serves file image .dump) :
    ∃ (value lowRow highRow : Word) (lines : List (Nat × List Word)),
      read.outcome.texts.map wordOf? = [some value] ∧
      low.outcome.texts.map wordOf? = [some lowRow] ∧
      high.outcome.texts.map wordOf? = [some highRow] ∧
      dump.outcome.texts.map lineOf? = lines.map some ∧
      value = lowRow ||| highRow ∧ (lines.flatMap Prod.snd)[w.val]? = some value ∧
      lines.map Prod.fst = (List.range 16).map (16 * ·) ∧ (∀ line ∈ lines, line.2.length = 4) ∧
      lowRow.toBytes ++ highRow.toBytes = (image.drop (8 * w.val)).take 8 ∧
      ∀ l ∈ [read, low, high, dump], l.outcome.exitStatus = 0 ∧ l.left file = some image := by
  obtain ⟨readTexts, readEnd⟩ := read_shows size w reads
  obtain ⟨lowTexts, lowEnd⟩ := readRow_shows size ⟨2 * w.val, Rows.low_lt w⟩ readsLow
  obtain ⟨highTexts, highEnd⟩ := readRow_shows size ⟨2 * w.val + 1, Rows.high_lt w⟩ readsHigh
  obtain ⟨dumpTexts, dumpEnd⟩ := dump_shows size dumps
  generalize rows_eq : Rows.ofImage (some image) = rows at readTexts lowTexts highTexts dumpTexts
  obtain ⟨lines, printed, offsets, four, words⟩ := dumpLines_read 0 16 rows.words.toList
    Vector.length_toList (by decide)
  refine ⟨rows.words.get w, rows.get ⟨2 * w.val, Rows.low_lt w⟩, rows.get ⟨2 * w.val + 1, Rows.high_lt w⟩,
    lines, ?_, ?_, ?_, ?_, Rows.words_get rows w, ?_, ?_, four, ?_, ?_⟩
  · rw [readTexts, List.map_singleton, wordOf?_markedWord]
  · rw [lowTexts, List.map_singleton, wordOf?_markedWord]
  · rw [highTexts, List.map_singleton, wordOf?_markedWord]
  · rw [dumpTexts, fuseSpace, printed]
  · rw [words]
    simp [Vector.get]
  · rw [offsets, List.range_eq_range']
  · rw [← rows_eq]
    exact toBytes_ofImage size w.val (Rows.high_lt w)
  · simp only [List.forall_mem_cons]
    exact ⟨readEnd, lowEnd, highEnd, dumpEnd, fun _ none => absurd none List.not_mem_nil⟩

theorem read_commands_agree_third :
    let bits : List Byte := [1, 0, 0, 0, 4, 0, 0, 0]
    let image : List Byte := List.replicate 24 0 ++ bits ++ List.replicate 480 0
    let world : Workbench := { directory := ({} : WorkDirectory).put "f" image }
    let read : Launch Workbench := ⟨{ command := .read 12, emulate := some "f" }, world⟩
    let low : Launch Workbench := ⟨{ command := .readRow 6 true, emulate := some "f" }, world⟩
    let high : Launch Workbench := ⟨{ command := .readRow 7 false, emulate := some "f" }, world⟩
    let dump : Launch Workbench :=
      ⟨{ command := .dump, emulate := some "f", enableProgramming := true }, world⟩
    image.length = FuseMacro.imageBytes ∧
    (∀ l ∈ [read, low, high, dump], l.Serves (Workbench.file "f") image l.invocation.command) ∧
    ∃ value lowRow highRow : Word, read.outcome.texts.map wordOf? = [some value] ∧
      low.outcome.texts.map wordOf? = [some lowRow] ∧ high.outcome.texts.map wordOf? = [some highRow] ∧
      value = lowRow ||| highRow ∧ lowRow.toBytes ++ highRow.toBytes = bits := by
  intro bits image world read low high dump
  have size : image.length = FuseMacro.imageBytes := by
    rw [List.length_append, List.length_append, List.length_replicate, List.length_replicate]
    rfl
  have reaches : world.directory.Reaches "f" "f" :=
    WorkDirectory.reaches_name _ (by decide) (by simp) (by decide)
  have serves (i : Invocation) (emulated : i.emulate = some "f") (default : i.config = none) :
      (⟨i, world⟩ : Launch Workbench).Serves (Workbench.file "f") image i.command := by
    have configured : (⟨i, world⟩ : Launch Workbench).config =
        .ok (if i.enableProgramming then ({} : Config).withProgramming true else {}) := by
      unfold Launch.config
      rw [default]
      cases i.enableProgramming <;> rfl
    have found : world.directory.find? "f" = some image := WorkDirectory.find?_put _ _ _
    exact ⟨⟨⟨"f", emulated, Workbench.holds_entry reaches⟩, fun _ _ => rfl⟩, found, ⟨_, configured⟩, rfl⟩
  obtain ⟨value, lowRow, highRow, lines, readText, lowText, highText, -, join, -, -, -, bytes, -⟩ :=
    read_commands_agree size 3 (serves read.invocation rfl rfl) (serves low.invocation rfl rfl)
      (serves high.invocation rfl rfl) (serves dump.invocation rfl rfl)
  refine ⟨size, ?_, value, lowRow, highRow, readText, lowText, highText, join, bytes⟩
  simp [read, low, high, dump, serves]

end FuseBank.Cli
