import Mathlib.Data.List.GetD
import FuseBank.Proofs.IntactMacro

/-!
The ways of reading a word of the fuse space, side by side: the word itself, the bytes of a range, a
read of a file after a seek, and a control request. On the emulated macro, in whatever state it is,
all of them show the word that its shadow register shows, and leave everything but the clock alone
(`read_paths_agree`).
-/

namespace FuseBank
open Routine

variable {σ : Type} {hw : Hardware σ} {words : Vector Word 64} {after : σ → Prop} {s : σ}

namespace Session

def opened (session : Session) : Session :=
  if session.files.isEmpty then { session with files := [{}] } else session

theorem files_opened (session : Session) : session.opened.files ≠ [] := by
  unfold opened
  split
  · exact List.cons_ne_nil _ _
  · rename_i some_file
    rwa [List.isEmpty_iff] at some_file

theorem opened_of_files {session : Session} (h : session.files ≠ []) : session.opened = session :=
  if_neg fun none => h (List.isEmpty_iff.1 none)

def fileAt (session : Session) (number : Nat) : OpenFile :=
  session.files.getD (number % session.files.length) {}

def withFile (session : Session) (number : Nat) (f : OpenFile) : Session :=
  { session with files := session.files.set (number % session.files.length) f }

theorem length_withFile (session : Session) (number : Nat) (f : OpenFile) :
    (session.withFile number f).files.length = session.files.length :=
  List.length_set

theorem index_lt {session : Session} (h : session.files ≠ []) (number : Nat) :
    number % session.files.length < session.files.length :=
  Nat.mod_lt _ (List.length_pos_iff.2 h)

theorem withFile_ne {session : Session} (h : session.files ≠ []) (number : Nat) (f : OpenFile) :
    (session.withFile number f).files ≠ [] := by
  rw [← List.length_pos_iff, length_withFile]
  exact List.length_pos_iff.2 h

theorem withFile_fileAt (session : Session) (number : Nat) :
    session.withFile number (session.fileAt number) = session := by
  unfold withFile fileAt
  rw [getD_set_self]

theorem fileAt_withFile {session : Session} (h : session.files ≠ []) (number i : Nat) (f : OpenFile) :
    (session.withFile number f).fileAt i =
      if number % session.files.length = i % session.files.length then f else session.fileAt i := by
  have inside := index_lt h i
  unfold fileAt
  rw [length_withFile, List.getD_eq_getElem _ _ (by rwa [length_withFile]),
    List.getD_eq_getElem _ _ inside]
  exact List.getElem_set ..

variable {session : Session} {number : Nat}

theorem gives_seek (target : BitVec 64) (h : after s) :
    Gives hw (session.perform (.onFile number (.seek target))) s
      ({ result := .ok .nothing, offset := some target.toNat }, session.opened.withFile number ⟨target⟩)
      after :=
  gives_done h

theorem gives_fileRead {f : OpenFile} {buffer : List Byte} {t : Transfer}
    (named : session.opened.fileAt number = f) (h : Gives hw (f.read buffer) s t after) :
    Gives hw (session.perform (.onFile number (.read buffer))) s
      ({ result := t.result.map .number, buffer := some t.buffer, offset := some t.file.offset },
        session.opened.withFile number t.file) after := by
  subst named
  exact h.bind_done rfl

theorem gives_fileControl {request : Word} {argument : List Byte} {t : Transfer}
    (h : Gives hw ((session.opened.fileAt number).control session.opened.device request argument) s t
      after) :
    Gives hw (session.perform (.onFile number (.control request argument))) s
      ({ result := t.result.map fun _ => .nothing, buffer := some t.buffer,
         offset := some t.file.offset }, session.opened.withFile number t.file) after :=
  h.bind_done rfl

def readAt (session : Session) (number : Nat) (start : BitVec 64) (buffer : List Byte) :
    Routine (Response × Session) := do
  let (_, sought) ← session.perform (.onFile number (.seek start))
  sought.perform (.onFile number (.read buffer))

theorem gives_readAt {start : BitVec 64} {buffer : List Byte} {t : Transfer}
    (h : Gives hw (OpenFile.read ⟨start⟩ buffer) s t after) :
    ∃ session', Gives hw (session.readAt number start buffer) s
      ({ result := t.result.map .number, buffer := some t.buffer, offset := some t.file.offset },
        session') after := by
  have some_file := session.files_opened
  have named : (session.opened.withFile number ⟨start⟩).opened.fileAt number = ⟨start⟩ := by
    rw [opened_of_files (withFile_ne some_file number ⟨start⟩), fileAt_withFile some_file,
      if_pos rfl]
  have read := gives_fileRead named h
  exact ⟨_, read⟩

end Session

/-- The bytes of word `w` stand at their places in a page that begins at byte `start`, as far as the
page holds them. -/
def ShowsWord (page : List Byte) (start : Nat) (w : Fin 64) (word : Word) : Prop :=
  ∀ j < 4, 4 * w.val + j < start + page.length →
    page[4 * w.val + j - start]? = some (word.byteAt j)

theorem showsWord_fuseRange (words : Vector Word 64) (w : Fin 64) {start n : Nat}
    (inside : start + n ≤ fuseBytes) (covers : start ≤ 4 * w.val) :
    ShowsWord (fuseRange words start n) start w (words.get w) := by
  intro j hj below
  rw [length_fuseRange words inside] at below
  exact getElem?_fuseRange words w hj (by omega) below

theorem fuseRange_word (words : Vector Word 64) (w : Fin 64) :
    fuseRange words (4 * w.val) 4 = (words.get w).toBytes := by
  rw [← take_words words w.val 1 4 (Nat.le_refl _), drop_words]
  simp [Word.toBytes]

theorem decode?_of_take {argument : List Byte} {addr : Word} (h : 8 ≤ argument.length)
    (named : argument.take 4 = addr.toBytes) :
    ∃ value, AddressedWord.decode? argument = some (⟨addr, value⟩, argument.drop 8) := by
  obtain ⟨⟨a, value⟩, decoded, front⟩ := AddressedWord.decode?_front h
  have same : a = addr := by
    have bytes : a.toBytes = addr.toBytes := (AddressedWord.addr_of_front front).trans named
    have listed := congrArg Word.listOfBytes bytes
    simpa [Word.toBytes, Word.listOfBytes, Word.ofBytes_toBytes] using listed
  rw [same] at decoded
  exact ⟨value, decoded⟩

/-- Whatever the macro is doing, every way of reading a word shows its shadow register, and nothing but
the clock is touched. A range or a file may begin at any aligned byte before the word and end inside
it; a control request may come in a buffer of any length. -/
theorem read_paths_agree {hw : Hardware FuseMacro} {m : FuseMacro} (clock : ClockRoom hw 1 m.clock)
    (session : Session) {addr : Word} {w : Fin 64} (place : addr.toNat = 4 * w.val) :
    Gives hw (session.perform (.readShadow addr)) m
      ({ result := .ok (.number (m.shadow.get w).toNat) }, session) (Reclocked hw 0 m) ∧
    (∀ buffer : List Byte, buffer.length = 4 →
      Gives hw (session.perform (.readBuffer addr buffer)) m
        ({ result := .ok (.number 4), buffer := some (m.shadow.get w).toBytes }, session)
        (Reclocked hw 0 m)) ∧
    (∀ (start : Word) (buffer : List Byte) (n : Nat), n = min buffer.length fuseBytes →
      start.toNat % 4 = 0 → start.toNat + n ≤ fuseBytes →
      start.toNat ≤ addr.toNat → addr.toNat < start.toNat + n →
      ∃ page, page.length = n ∧ ShowsWord page start.toNat w (m.shadow.get w) ∧
        Gives hw (session.perform (.readBuffer start buffer)) m
          ({ result := .ok (.number n), buffer := some (page ++ buffer.drop n) }, session)
          (Reclocked hw 0 m)) ∧
    (∀ (number : Nat) (start : BitVec 64) (buffer : List Byte) (n : Nat),
      n = min buffer.length (fuseBytes - start.toNat) →
      start.toNat % 4 = 0 → start.toNat ≤ addr.toNat → addr.toNat < start.toNat + n →
      ∃ page, page.length = n ∧ ShowsWord page start.toNat w (m.shadow.get w) ∧
        ∃ session', Gives hw (session.readAt number start buffer) m
          ({ result := .ok (.number n), buffer := some (page ++ buffer.drop n),
             offset := some (start.toNat + n) }, session') (Reclocked hw 0 m)) ∧
    (∀ (number : Nat) (argument : List Byte), 8 ≤ argument.length → argument.take 4 = addr.toBytes →
      Gives hw (session.perform (.onFile number (.control readRequest argument))) m
        ({ result := .ok .nothing,
           buffer := some (argument.take 4 ++ (m.shadow.get w).toBytes ++ argument.drop 8),
           offset := some (session.opened.fileAt number).offset }, session.opened)
        (Reclocked hw 0 m)) := by
  have readable := clock.readable
  have inside := w.isLt
  have size : fuseBytes = 256 := rfl
  refine ⟨(gives_readShadow readable place).bind_done rfl, ?_, ?_, ?_, ?_⟩
  · intro buffer length
    have count : min buffer.length fuseBytes = 4 := by omega
    have nothing : buffer.drop 4 = [] := List.drop_eq_nil_of_le (Nat.le_of_eq length)
    have aligned : addr.toNat % 4 = 0 := by omega
    have given := gives_readBuffer readable count (by decide) aligned (by omega)
    rw [place, fuseRange_word, nothing, List.append_nil] at given
    exact given.bind_done rfl
  · rintro start buffer n count aligned ends before below
    refine ⟨fuseRange m.shadow start.toNat n, length_fuseRange _ ends,
      showsWord_fuseRange _ w ends (by omega), ?_⟩
    exact (gives_readBuffer readable count.symm (by omega) aligned ends).bind_done rfl
  · rintro number start buffer n count aligned before below
    have ends : start.toNat + n ≤ fuseBytes := by omega
    refine ⟨fuseRange m.shadow start.toNat n, length_fuseRange _ ends,
      showsWord_fuseRange _ w ends (by omega), ?_⟩
    have advanced : (OpenFile.advance ⟨start⟩ n).offset = start.toNat + n :=
      OpenFile.offset_advance (Nat.lt_of_le_of_lt ends (by decide))
    rw [← advanced]
    exact Session.gives_readAt
      (OpenFile.gives_read readable (f := ⟨start⟩) count.symm (by omega) aligned)
  · intro number argument long named
    obtain ⟨value, decoded⟩ := decode?_of_take long named
    have read := OpenFile.gives_control readable (f := session.opened.fileAt number)
      session.opened.device decoded place
    have given := Session.gives_fileControl read
    rw [Session.withFile_fileAt session.opened number, ← named] at given
    exact given

def FuseMacro.stalled : FuseMacro :=
  { blank with
    shadow := Vector.ofFn fun i => 0x11223300 + BitVec.ofNat 32 i.val
    powered := false, hang := true, busyRemaining := 7, clock := { attached := true } }

theorem read_paths_agree_stalled :
    let session : Session := { device := ⟨.ofLimit 1, false⟩ }
    let argument : List Byte := [12, 0, 0, 0, 0xaa, 0xaa, 0xaa, 0xaa, 0xbb]
    ClockRoom FuseMacro.hardware 1 FuseMacro.stalled.clock ∧ (12 : Word).toNat = 4 * (3 : Fin 64).val ∧
    (∃ page, page.length = 6 ∧ ShowsWord page 8 3 0x11223303 ∧
      ∃ session', Gives FuseMacro.hardware (session.readAt 5 8 (List.replicate 6 0)) FuseMacro.stalled
        ({ result := .ok (.number 6), buffer := some (page ++ []), offset := some 14 }, session')
        (Reclocked FuseMacro.hardware 0 FuseMacro.stalled)) ∧
    Gives FuseMacro.hardware (session.perform (.onFile 5 (.control readRequest argument)))
      FuseMacro.stalled
      ({ result := .ok .nothing, buffer := some [12, 0, 0, 0, 0x03, 0x33, 0x22, 0x11, 0xbb],
         offset := some 0 }, { session with files := [{}] })
      (Reclocked FuseMacro.hardware 0 FuseMacro.stalled) := by
  intro session argument
  have clock : ClockRoom FuseMacro.hardware 1 FuseMacro.stalled.clock :=
    .inr ⟨rfl, rfl, by decide, by decide⟩
  have place : (12 : Word).toNat = 4 * (3 : Fin 64).val := rfl
  have shown : FuseMacro.stalled.shadow.get 3 = 0x11223303 := Vector.getElem_ofFn (by decide)
  have answered : argument.take 4 ++ Word.toBytes 0x11223303 ++ argument.drop 8 =
      [12, 0, 0, 0, 0x03, 0x33, 0x22, 0x11, 0xbb] := by decide
  obtain ⟨-, -, -, file, request⟩ := read_paths_agree clock session place
  rw [shown] at file request
  refine ⟨clock, place, file 5 8 (List.replicate 6 0) 6 rfl rfl (by decide) (by decide), ?_⟩
  have opened : session.opened = { session with files := [{}] } := rfl
  have start : (session.opened.fileAt 5).offset = 0 := by
    simp [session, Session.opened, Session.fileAt, OpenFile.offset]
  have given := request 5 argument (by decide) rfl
  rw [answered, start, opened] at given
  exact given

end FuseBank
