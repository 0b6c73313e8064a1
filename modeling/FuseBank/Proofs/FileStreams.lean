import Mathlib.Algebra.GroupWithZero.Nat
import FuseBank.Proofs.ReadPaths

/-!
Files as cursors over the fuse space. Where the shadow registers keep showing the same words, the calls
that read one file and move its cursor are answered as `stream` says, whatever is done on other files
in between. Reading in chunks of whole words gives what one read gives, and a file whose cursor has come
to rest inside a word is stuck there until it is moved (`file_reads_stream`).
-/

namespace FuseBank
open Routine

variable {σ : Type} {hw : Hardware σ} {words : Vector Word 64} {s : σ}

def ShadowHeld (hw : Hardware σ) (words : Vector Word 64) : Nat → σ → Prop
  | 0, _ => True
  | reads + 1, s => Readable hw words (ShadowHeld hw words reads) s

theorem Readable.imp {after later : σ → Prop} (h : Readable hw words after s)
    (imp : ∀ t, after t → later t) : Readable hw words later s := by
  obtain ⟨on, lit, bright, shows, off⟩ := h
  exact ⟨on, lit, bright, shows, fun t ht => ⟨(off t ht).1, imp _ (off t ht).2⟩⟩

theorem ShadowHeld.less {reads : Nat} (h : ShadowHeld hw words (reads + 1) s) :
    ShadowHeld hw words reads s := by
  induction reads generalizing s with
  | zero => trivial
  | succ reads ih => exact Readable.imp h fun t held => ih held

theorem ClockRoom.shadowHeld {hw : Hardware FuseMacro} {reads : Nat} {m : FuseMacro}
    (clock : ClockRoom hw reads m.clock) : ShadowHeld hw m.shadow reads m := by
  induction reads generalizing m with
  | zero => trivial
  | succ reads ih =>
    refine clock.readable.imp ?_
    rintro _ ⟨off, rfl, less⟩
    exact ih (m := { m with clock := off }) less

/-- A call that reads a file or moves its cursor. -/
inductive StreamCall where
  | seek (target : BitVec 64)
  | read (buffer : List Byte)

def OpenFile.streamed (words : Vector Word 64) (f : OpenFile) (buffer : List Byte) : Transfer :=
  if fuseBytes ≤ f.offset then ⟨.ok 0, f, buffer⟩
  else if f.offset % 4 = 0 then
    let n := min buffer.length (fuseBytes - f.offset)
    ⟨.ok n, f.advance n, fuseRange words f.offset n ++ buffer.drop n⟩
  else if buffer = [] then ⟨.ok 0, f, buffer⟩
  else ⟨.error (.badAddress (BitVec.ofNat 32 f.offset)), f, buffer⟩

namespace StreamCall

def toCall : StreamCall → FileCall
  | seek target => .seek target
  | read buffer => .read buffer

def served (words : Vector Word 64) (f : OpenFile) : StreamCall → Response × OpenFile
  | seek target => ({ result := .ok .nothing, offset := some target.toNat }, ⟨target⟩)
  | read buffer =>
    let t := f.streamed words buffer
    ({ result := t.result.map .number, buffer := some t.buffer, offset := some t.file.offset }, t.file)

end StreamCall

/-- The answers to calls on one file. -/
def stream (words : Vector Word 64) : OpenFile → List StreamCall → List Response
  | _, [] => []
  | f, call :: calls => (call.served words f).1 :: stream words (call.served words f).2 calls

def OpenFile.movedBy (words : Vector Word 64) (f : OpenFile) (calls : List StreamCall) : OpenFile :=
  calls.foldl (fun f call => (call.served words f).2) f

def Response.chunk (r : Response) : List Byte :=
  match r.result, r.buffer with
  | .ok (.number n), some bytes => bytes.take n
  | _, _ => []

theorem length_stream (words : Vector Word 64) (f : OpenFile) (calls : List StreamCall) :
    (stream words f calls).length = calls.length := by
  induction calls generalizing f with
  | nil => rfl
  | cons call calls ih => rw [stream, List.length_cons, ih, List.length_cons]

theorem stream_append (words : Vector Word 64) (f : OpenFile) (first calls : List StreamCall) :
    stream words f (first ++ calls) =
      stream words f first ++ stream words (f.movedBy words first) calls := by
  induction first generalizing f with
  | nil => rfl
  | cons call first ih =>
    rw [List.cons_append, stream, stream, ih, List.cons_append]
    rfl

theorem stream_segment (words : Vector Word 64) (f : OpenFile) (first middle rest : List StreamCall) :
    ((stream words f (first ++ middle ++ rest)).drop first.length).take middle.length =
      stream words (f.movedBy words first) middle := by
  rw [List.append_assoc, stream_append, List.drop_left' (length_stream ..), stream_append,
    List.take_left' (length_stream ..)]

theorem OpenFile.advance_zero (f : OpenFile) : f.advance 0 = f :=
  congrArg OpenFile.mk (BitVec.add_zero f.position)

theorem OpenFile.streamed_aligned {f : OpenFile} (aligned : f.offset % 4 = 0)
    (below : f.offset ≤ fuseBytes) (buffer : List Byte) {n : Nat}
    (count : min buffer.length (fuseBytes - f.offset) = n) :
    f.streamed words buffer =
      ⟨.ok n, f.advance n, fuseRange words f.offset n ++ buffer.drop n⟩ := by
  unfold streamed
  by_cases ended : fuseBytes ≤ f.offset
  · obtain rfl : n = 0 := by omega
    rw [if_pos ended, f.advance_zero]
    rfl
  · rw [if_neg ended, if_pos aligned]
    dsimp only
    rw [count]

theorem OpenFile.streamed_misaligned {f : OpenFile} (inside : f.offset < fuseBytes)
    (misaligned : f.offset % 4 ≠ 0) (buffer : List Byte) :
    f.streamed words buffer =
      ⟨if buffer = [] then .ok 0 else .error (.badAddress (BitVec.ofNat 32 f.offset)), f, buffer⟩ := by
  unfold streamed
  rw [if_neg (by omega), if_neg misaligned]
  split
  · rfl
  · rfl

theorem chunks_stream (words : Vector Word 64) {f : OpenFile} (aligned : f.offset % 4 = 0)
    (below : f.offset ≤ fuseBytes) (buffers : List (List Byte))
    (whole : ∀ b ∈ buffers.dropLast, b.length % 4 = 0) :
    (stream words f (buffers.map .read)).flatMap Response.chunk =
      fuseRange words f.offset (min (buffers.map List.length).sum (fuseBytes - f.offset)) := by
  induction buffers generalizing f with
  | nil => simp [stream, fuseRange]
  | cons b buffers ih =>
    obtain ⟨n, count⟩ : ∃ n, min b.length (fuseBytes - f.offset) = n := ⟨_, rfl⟩
    have advanced : (f.advance n).offset = f.offset + n :=
      OpenFile.offset_advance (Nat.lt_of_le_of_lt (by omega : f.offset + n ≤ fuseBytes) (by decide))
    have served : (StreamCall.read b).served words f =
        ({ result := .ok (.number n), buffer := some (fuseRange words f.offset n ++ b.drop n),
           offset := some (f.advance n).offset }, f.advance n) := by
      rw [StreamCall.served, OpenFile.streamed_aligned aligned below b count]
      rfl
    have first : Response.chunk ((StreamCall.read b).served words f).1 = fuseRange words f.offset n := by
      rw [served]
      exact List.take_left' (length_fuseRange words (by omega))
    rw [List.map_cons, stream, List.flatMap_cons, first, served]
    cases buffers with
    | nil =>
      have all : min ([b].map List.length).sum (fuseBytes - f.offset) = n := by
        rw [List.map_singleton, List.sum_singleton, count]
      rw [all]
      exact List.append_nil _
    | cons next rest =>
      have word : b.length % 4 = 0 := whole b (by simp)
      have still : ∀ b ∈ (next :: rest).dropLast, b.length % 4 = 0 :=
        fun b hb => whole b (by simp [hb])
      have ended : fuseBytes % 4 = 0 := rfl
      have total : ((b :: next :: rest).map List.length).sum =
          b.length + ((next :: rest).map List.length).sum := by
        rw [List.map_cons, List.sum_cons]
      rw [ih (f := f.advance n) (by omega) (by omega) still, advanced, fuseRange_append, total]
      congr 1
      omega

/-- What a read answers while the cursor stands inside a word. -/
def stuckAnswer (offset : Nat) (buffer : List Byte) : Response where
  result := if buffer = [] then .ok (.number 0) else .error (.badAddress (BitVec.ofNat 32 offset))
  buffer := some buffer
  offset := some offset

theorem stream_stuck {f : OpenFile} (inside : f.offset < fuseBytes) (misaligned : f.offset % 4 ≠ 0)
    (buffers : List (List Byte)) :
    stream words f (buffers.map .read) = buffers.map (stuckAnswer f.offset) ∧
    f.movedBy words (buffers.map .read) = f := by
  induction buffers with
  | nil => exact ⟨rfl, rfl⟩
  | cons b buffers ih =>
    have served : (StreamCall.read b).served words f = (stuckAnswer f.offset b, f) := by
      rw [StreamCall.served, OpenFile.streamed_misaligned inside misaligned, stuckAnswer]
      split
      · rfl
      · rfl
    constructor
    · rw [List.map_cons, stream, served, ih.1, List.map_cons]
    · rw [List.map_cons, OpenFile.movedBy, List.foldl_cons, served]
      exact ih.2

def callsOn (count i : Nat) (calls : List (Nat × StreamCall)) : List StreamCall :=
  (calls.filter fun x => x.1 % count = i).map Prod.snd

def Step.isOn (count i : Nat) : Step → Bool
  | .call (.onFile number _) => number % count = i
  | _ => false

def answersOn (count i : Nat) (transcript : List (Step × Served σ)) : List (Option Response) :=
  (transcript.filter fun x => x.1.isOn count i).map fun x => x.2.response

theorem OpenFile.read_nil {f : OpenFile} (inside : f.offset < fuseBytes) :
    f.read [] = done ⟨.ok 0, f, []⟩ := by
  have none : min ([] : List Byte).length (fuseBytes - f.offset) = 0 := Nat.zero_min _
  unfold read
  rw [if_neg (by omega)]
  dsimp only
  rw [none]
  change done (⟨.ok 0, f.advance 0, []⟩ : Transfer) = _
  rw [f.advance_zero]

theorem OpenFile.read_misaligned {f : OpenFile} (inside : f.offset < fuseBytes)
    (misaligned : f.offset % 4 ≠ 0) {buffer : List Byte} (some_bytes : buffer ≠ []) :
    f.read buffer = done ⟨.error (.badAddress (BitVec.ofNat 32 f.offset)), f, buffer⟩ := by
  have long := List.length_pos_iff.2 some_bytes
  obtain ⟨n, count⟩ : ∃ n, min buffer.length (fuseBytes - f.offset) = n := ⟨_, rfl⟩
  have page : min (List.replicate n (0 : Byte)).length fuseBytes = n := by
    rw [List.length_replicate]
    omega
  have invalid : ¬ Controller.ValidAddress (BitVec.ofNat 32 f.offset) := by
    rintro ⟨-, aligned⟩
    rw [BitVec.toNat_ofNat] at aligned
    omega
  unfold read Device.readBuffer Controller.readBuffer
  rw [if_neg (by omega)]
  simp only [count, page]
  rw [if_neg (by omega), if_pos invalid]
  rfl

theorem OpenFile.gives_streamed {reads : Nat} (held : ShadowHeld hw words (reads + 1) s) (f : OpenFile)
    (buffer : List Byte) :
    Gives hw (f.read buffer) s (f.streamed words buffer) (ShadowHeld hw words reads) := by
  by_cases ended : fuseBytes ≤ f.offset
  · have at_end : f.read buffer = done ⟨.ok 0, f, buffer⟩ := if_pos ended
    rw [at_end, streamed, if_pos ended]
    exact gives_done held.less
  have inside := Nat.not_le.1 ended
  by_cases aligned : f.offset % 4 = 0
  · obtain ⟨n, count⟩ : ∃ n, min buffer.length (fuseBytes - f.offset) = n := ⟨_, rfl⟩
    rw [streamed_aligned aligned (by omega) buffer count]
    by_cases nothing : buffer = []
    · subst nothing
      obtain rfl : n = 0 := by rw [← count]; exact Nat.zero_min _
      rw [read_nil inside, f.advance_zero]
      exact gives_done held.less
    · have long := List.length_pos_iff.2 nothing
      exact gives_read held count (by omega) aligned
  · rw [streamed_misaligned inside aligned]
    by_cases nothing : buffer = []
    · subst nothing
      rw [read_nil inside]
      exact gives_done held.less
    · rw [read_misaligned inside aligned nothing, if_neg nothing]
      exact gives_done held.less

theorem OpenFile.gives_first (held : ShadowHeld hw words 1 s) {whole : List Byte} {n : Nat}
    (count : min whole.length fuseBytes = n) :
    Gives hw (OpenFile.read ⟨0⟩ whole) s ⟨.ok n, advance ⟨0⟩ n, fuseRange words 0 n ++ whole.drop n⟩
      fun _ => True := by
  have read : Gives hw (OpenFile.read ⟨0⟩ whole) s (streamed words ⟨0⟩ whole) (ShadowHeld hw words 0) :=
    gives_streamed held ⟨0⟩ whole
  rwa [streamed_aligned (f := ⟨0⟩) rfl (Nat.zero_le _) whole count] at read

namespace Session

variable {session : Session} {after : σ → Prop}

theorem fileAt_eq {i : Nat} {f : OpenFile} (h : session.files[i]? = some f) : session.fileAt i = f := by
  obtain ⟨inside, named⟩ := List.getElem?_eq_some_iff.1 h
  unfold fileAt
  rw [Nat.mod_eq_of_lt inside, List.getD_eq_getElem _ _ inside, named]

theorem serve_of_gives {call : Call} {response : Response} {session' : Session}
    (h : Gives hw (session.perform call) s (response, session') after) :
    (session.serve hw s (.call call)).response = some response ∧
    (session.serve hw s (.call call)).session = session' ∧
    after (session.serve hw s (.call call)).state := by
  obtain ⟨t, ⟨returned, rfl⟩, ends⟩ := h
  rw [serve_call]
  dsimp only
  rw [returned]
  exact ⟨rfl, rfl, ends⟩

theorem serve_stream {reads : Nat} (held : ShadowHeld hw words (reads + 1) s)
    (some_file : session.files ≠ []) (number : Nat) (call : StreamCall) :
    let served := call.served words (session.fileAt number)
    let r := session.serve hw s (.call (.onFile number call.toCall))
    r.response = some served.1 ∧ r.session = session.withFile number served.2 ∧
    ShadowHeld hw words reads r.state := by
  have opened := opened_of_files some_file
  cases call with
  | seek target =>
    have given : Gives hw (session.perform (.onFile number (.seek target))) s
        ({ result := .ok .nothing, offset := some target.toNat },
          session.opened.withFile number ⟨target⟩) (ShadowHeld hw words reads) := gives_seek target held.less
    rw [opened] at given
    exact serve_of_gives given
  | read buffer =>
    have named : session.opened.fileAt number = session.fileAt number := by rw [opened]
    have given := gives_fileRead named
      (OpenFile.gives_streamed held (session.fileAt number) buffer)
    rw [opened] at given
    exact serve_of_gives given

theorem answersOn_transcript (calls : List (Nat × StreamCall)) (held : ShadowHeld hw words calls.length s)
    {i : Nat} (inside : i < session.files.length) :
    answersOn session.files.length i
      (session.transcript hw s (calls.map fun x => .call (.onFile x.1 x.2.toCall))) =
      (stream words (session.fileAt i) (callsOn session.files.length i calls)).map some := by
  -- Each file is a cursor of its own: its answers depend on the calls that go to it alone.
  have here : i % session.files.length = i := Nat.mod_eq_of_lt inside
  induction calls generalizing session s with
  | nil => rfl
  | cons x calls ih =>
    obtain ⟨number, call⟩ := x
    have some_file : session.files ≠ [] := List.ne_nil_of_length_pos (by omega)
    obtain ⟨answered, moved, later⟩ := serve_stream held some_file number call
    obtain ⟨f, served⟩ : ∃ f, (call.served words (session.fileAt number)).2 = f := ⟨_, rfl⟩
    rw [served] at moved
    have length := session.length_withFile number f
    rw [← length, ← moved] at inside here
    have rest := ih later inside here
    rw [moved, length] at inside here
    rw [moved, length, fileAt_withFile some_file, here, ← moved] at rest
    rw [List.map_cons, transcript, answersOn, callsOn, List.filter_cons, List.filter_cons]
    by_cases own : number % session.files.length = i
    · have same : session.fileAt number = session.fileAt i := by
        unfold fileAt
        rw [own, here]
      rw [if_pos own] at rest
      rw [same] at answered served
      rw [if_pos (by simpa [Step.isOn] using own), if_pos (by simpa using own), List.map_cons,
        List.map_cons, stream, List.map_cons, served, answered]
      exact congrArg _ rest
    · rw [if_neg own] at rest
      rw [if_neg (by simpa [Step.isOn] using own), if_neg (by simpa using own)]
      exact rest

end Session

/-- Each of the files open on a device answers as a cursor of its own over the words that the registers
keep showing. Of any reads in a row on one file: from offset 0, in chunks of whole words but for the
last, they deliver what one read of their total length delivers; and from inside a word they deliver
nothing. -/
theorem file_reads_stream {session : Session} (calls : List (Nat × StreamCall))
    (held : ShadowHeld hw words calls.length s) {i : Nat} {f : OpenFile}
    (file : session.files[i]? = some f) :
    let own := callsOn session.files.length i calls
    let answers := answersOn session.files.length i
      (session.transcript hw s (calls.map fun x => .call (.onFile x.1 x.2.toCall)))
    answers = (stream words f own).map some ∧
    ∀ (first rest : List StreamCall) (buffers : List (List Byte)),
      own = first ++ buffers.map .read ++ rest →
      let o := (f.movedBy words first).offset
      let reads := (answers.drop first.length).take buffers.length
      (o = 0 → (∀ b ∈ buffers.dropLast, b.length % 4 = 0) →
        let total := (buffers.map List.length).sum
        let n := min total fuseBytes
        (reads.flatMap fun answer => answer.elim [] Response.chunk) = fuseRange words 0 n ∧
        ∀ (whole : List Byte) (t : σ), whole.length = total → ShadowHeld hw words 1 t →
          Gives hw (OpenFile.read ⟨0⟩ whole) t
            ⟨.ok n, OpenFile.advance ⟨0⟩ n, fuseRange words 0 n ++ whole.drop n⟩ fun _ => True) ∧
      (o < fuseBytes → o % 4 ≠ 0 → reads = buffers.map fun b => some (stuckAnswer o b)) := by
  intro own answers
  obtain ⟨inside, -⟩ := List.getElem?_eq_some_iff.1 file
  have answered : answers = (stream words f own).map some := by
    have shown := Session.answersOn_transcript calls held inside
    rwa [Session.fileAt_eq file] at shown
  refine ⟨answered, ?_⟩
  intro first rest buffers split o reads
  have segment : reads = (stream words (f.movedBy words first) (buffers.map .read)).map some := by
    have middle := stream_segment words f first (buffers.map .read) rest
    rw [List.length_map, ← split] at middle
    rw [← middle, List.map_take, List.map_drop, ← answered]
  constructor
  · intro start whole_words total n
    change (f.movedBy words first).offset = 0 at start
    constructor
    · have chunks := chunks_stream words (f := f.movedBy words first) (by rw [start])
        (by rw [start]; exact Nat.zero_le _) buffers whole_words
      rw [start, Nat.sub_zero] at chunks
      rw [segment, List.flatMap_map]
      exact chunks
    · intro whole t length held
      exact OpenFile.gives_first held (by rw [length])
  · intro below misaligned
    rw [segment, (stream_stuck below misaligned buffers).1, List.map_map]
    rfl

theorem file_reads_stream_in_turns :
    let session : Session := ⟨⟨.ofLimit 1, false⟩, [⟨0⟩, ⟨252⟩]⟩
    let calls : List (Nat × StreamCall) := [(0, .read [7, 7, 7, 7]), (1, .read [7, 7, 7, 7, 7]),
      (2, .read [7, 7, 7, 7, 7, 7]), (1, .seek 2), (0, .read [7]), (0, .seek 300), (0, .read [7])]
    let answers := answersOn 2 0 (session.transcript FuseMacro.hardware FuseMacro.stalled
      (calls.map fun x => .call (.onFile x.1 x.2.toCall)))
    ShadowHeld FuseMacro.hardware FuseMacro.stalled.shadow 7 FuseMacro.stalled ∧
    session.files[0]? = some ⟨0⟩ ∧
    answers = [
      some { result := .ok (.number 4), buffer := some [0x00, 0x33, 0x22, 0x11], offset := some 4 },
      some { result := .ok (.number 6), buffer := some [0x01, 0x33, 0x22, 0x11, 0x02, 0x33],
             offset := some 10 },
      some { result := .error (.badAddress 10), buffer := some [7], offset := some 10 },
      some { result := .ok .nothing, offset := some 300 },
      some { result := .ok (.number 0), buffer := some [7], offset := some 300 }] ∧
    ((answers.take 2).flatMap fun answer => answer.elim [] Response.chunk) =
      fuseRange FuseMacro.stalled.shadow 0 10 := by
  intro session calls answers
  have clock : ClockRoom FuseMacro.hardware 7 FuseMacro.stalled.clock :=
    .inr ⟨rfl, rfl, by decide, by decide⟩
  have held := clock.shadowHeld
  have own : callsOn session.files.length 0 calls = [.read [7, 7, 7, 7], .read [7, 7, 7, 7, 7, 7],
      .read [7], .seek 300, .read [7]] := by simp [callsOn, session, calls]
  have file : session.files[0]? = some ⟨0⟩ := rfl
  obtain ⟨answered, streamed⟩ := file_reads_stream calls held file
  obtain ⟨chunked, -⟩ := streamed [] [.read [7], .seek 300, .read [7]]
    [[7, 7, 7, 7], [7, 7, 7, 7, 7, 7]] own
  rw [own] at answered
  exact ⟨held, file, answered.trans rfl, (chunked rfl (by decide)).1⟩

end FuseBank
