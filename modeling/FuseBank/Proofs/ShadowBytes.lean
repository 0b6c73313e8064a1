import FuseBank.Proofs.Outcomes
import FuseBank.Proofs.ShadowReads
import FuseBank.Proofs.Transcript

/-!
The shadow registers as the bytes of the fuse space, and what the four ways of reading them show. A
read that succeeds shows a stretch of these bytes, as they were when it began (`Session.ensures_shows`).
-/

namespace FuseBank
open Routine Operation

namespace Word

theorem byteAt_and (a b : Word) (j : Nat) : (a &&& b).byteAt j = a.byteAt j &&& b.byteAt j :=
  BitVec.extractLsb'_and

theorem covers_of_bytes {w need : Word}
    (h : ∀ j < 4, need.byteAt j &&& w.byteAt j = need.byteAt j) : w.Covers need := by
  have bytes : ∀ j < 4, (need &&& w).byteAt j = need.byteAt j := by
    intro j hj
    rw [byteAt_and, h j hj]
  change need &&& w = need
  rw [← ofBytes_toBytes (need &&& w), bytes 0 (by decide), bytes 1 (by decide), bytes 2 (by decide),
    bytes 3 (by decide), ofBytes_toBytes]

end Word

namespace FuseMacro

variable {m m' : FuseMacro} {g : Gate FuseMacro}

def shadowBytes (m : FuseMacro) : List Byte := m.shadow.toList.flatMap Word.toBytes

theorem getElem?_shadowBytes {k : Nat} {b : Byte} : m.shadowBytes[k]? = some b ↔
    ∃ i : Fin 64, i.val = k / 4 ∧ (m.shadow.get i).byteAt (k % 4) = b := by
  rw [shadowBytes, Word.getElem?_flatMap_toBytes, Option.map_eq_some_iff]
  constructor
  · rintro ⟨w, found, byte⟩
    obtain ⟨below, rfl⟩ := List.getElem?_eq_some_iff.1 found
    have inside : k / 4 < 64 := by simpa using below
    exact ⟨⟨k / 4, inside⟩, rfl, byte⟩
  · rintro ⟨i, place, byte⟩
    refine ⟨m.shadow.get i, ?_, byte⟩
    rw [← place, Vector.getElem?_toList, Vector.getElem?_eq_getElem i.isLt]
    rfl

theorem Grows.bytes (h : Grows m m') (sound : m.Sound) {k : Nat} {b c : Byte}
    (before : m.shadowBytes[k]? = some b) (after : m'.shadowBytes[k]? = some c) : b &&& c = b := by
  obtain ⟨i, place, rfl⟩ := getElem?_shadowBytes.1 before
  obtain ⟨i', place', rfl⟩ := getElem?_shadowBytes.1 after
  obtain rfl : i = i' := Fin.ext (place.trans place'.symm)
  have covered : m.shadow.get i &&& m'.shadow.get i = m.shadow.get i := h.shadow sound i
  rw [← Word.byteAt_and, covered]

theorem readRegister_shadow (lit : m.shadowGated = false) (i : Fin 64) :
    readRegister (Offset.shadow + 4 * i.val) m = { result := .ok (m.shadow.get i), state := m } := by
  have bound := i.isLt
  have place : (Offset.shadow + 4 * i.val - Offset.shadow) / 4 = i.val := by omega
  have inside : Offset.shadow ≤ Offset.shadow + 4 * i.val ∧
      Offset.shadow + 4 * i.val < Offset.shadowEnd := by
    simp only [Offset.shadowEnd, fuseBytes]
    omega
  have past : ∀ o < Offset.shadow, Offset.shadow + 4 * i.val ≠ o := by omega
  have awake : ¬ m.shadowGated = true := by simp [lit]
  unfold readRegister
  rw [if_neg (past _ (by decide)), if_neg (past _ (by decide)), if_neg (past _ (by decide)),
    if_neg (past _ (by decide)), if_neg (past _ (by decide)), dif_pos inside, if_neg awake]
  simp only [place]
  rfl

theorem shadowShows (lit : m.shadowGated = false) : ShadowShows ⟨bus, g⟩ m.shadow (· = m) := by
  rintro _ rfl i
  have register := readRegister_shadow lit i
  exact ⟨congrArg Reply.result register, congrArg Reply.state register⟩

theorem yields_shadow (lit : m.shadowGated = false) (i : Fin 64) :
    Yields ⟨bus, g⟩ (Routine.readRegister (Offset.shadow + 4 * i.val)) m (m.shadow.get i) m := by
  obtain ⟨_, yields, rfl⟩ := gives_shadow (shadowShows (g := g) lit) rfl i
  exact yields

theorem yields_readWords (lit : m.shadowGated = false) (i count : Nat) (h : i + count ≤ 64) :
    Yields ⟨bus, g⟩ (Controller.readWords (Offset.shadow + 4 * i) count) m
      ((m.shadow.toList.drop i).take count) m := by
  obtain ⟨_, yields, rfl⟩ := gives_readWords (shadowShows (g := g) lit) rfl i count h
  exact yields

theorem enableClock_lit (m : FuseMacro) (on : (enableClock m).result = .ok (.ok ())) :
    (enableClock m).state.shadowGated = false ∧ (enableClock m).state.shadow = m.shadow := by
  unfold enableClock at on ⊢
  split at on
  · cases on
  rw [if_neg ‹_›]
  dsimp only at on ⊢
  split at on
  · cases on
  · rw [if_neg ‹_›]
    exact ⟨Bool.and_false _, rfl⟩

theorem words_prefix (m : FuseMacro) (i count : Nat) :
    ((m.shadow.toList.drop i).take count).flatMap Word.toBytes <+: m.shadowBytes.drop (4 * i) := by
  rw [shadowBytes, ← Word.flatMap_toBytes_drop]
  obtain ⟨rest, split⟩ := List.take_prefix count (m.shadow.toList.drop i)
  exact ⟨rest.flatMap Word.toBytes, by rw [← List.flatMap_append, split]⟩

end FuseMacro

variable (m : FuseMacro)

theorem Operation.succeeds_lit {α : Type} {body : Operation α} {Q : α → Prop}
    (h : ∀ lit : FuseMacro, lit.shadowGated = false → lit.shadow = m.shadow →
      ∃ a t, Yields FuseMacro.hardware body.run lit (.ok a) t ∧ Q a) :
    Succeeds FuseMacro.hardware (Controller.withClock body) (fun a _ => Q a) m := by
  refine succeeds_withClock fun on => ?_
  obtain ⟨lit, same⟩ := m.enableClock_lit on
  obtain ⟨a, t, yields, hQ⟩ := h _ lit same
  refine yields.ensures ?_
  rintro _ ⟨⟩
  exact hQ

namespace Controller

theorem succeeds_checkAddress {σ : Type} {hw : Hardware σ} (addr : Word) (s : σ) :
    Succeeds hw (checkAddress addr) (fun _ t => ValidAddress addr ∧ t = s) s := by
  unfold checkAddress
  split
  · exact succeeds_pure ⟨‹_›, rfl⟩
  · exact succeeds_throw _

theorem succeeds_readShadow (addr : Word) :
    Succeeds FuseMacro.hardware (readShadow addr)
      (fun v _ => v.toBytes <+: m.shadowBytes.drop addr.toNat) m := by
  refine (succeeds_checkAddress addr m).andThen ?_
  rintro _ m ⟨valid, rfl⟩
  obtain ⟨offset, below⟩ := valid.shadow
  have place : 4 * (addr.toNat / 4) = addr.toNat := by omega
  refine succeeds_lit _ fun lit readable same => ?_
  rw [offset]
  refine ⟨_, _, yields_lift (FuseMacro.yields_shadow readable ⟨addr.toNat / 4, below⟩), ?_⟩
  rw [same]
  have stretch := FuseMacro.words_prefix m (addr.toNat / 4) 1
  rw [place, drop_words m.shadow ⟨addr.toNat / 4, below⟩] at stretch
  exact stretch

theorem ensures_readBuffer (addr : Word) (buffer : List Byte) :
    Ensures FuseMacro.hardware (readBuffer addr buffer)
      (fun x _ => ∀ n, x.1 = .ok n → ∃ page, page.length = n ∧ x.2 = page ++ buffer.drop n ∧
        page <+: m.shadowBytes.drop addr.toNat) m := by
  unfold readBuffer
  dsimp only
  split
  · refine ensures_done ?_
    rintro _ ⟨⟩
    exact ⟨[], rfl, rfl, List.nil_prefix⟩
  split
  · exact ensures_done nofun
  split
  · exact ensures_done nofun
  rename_i some_bytes valid in_range
  have valid := Decidable.not_not.1 valid
  obtain ⟨offset, below⟩ := valid.shadow
  have place : 4 * (addr.toNat / 4) = addr.toNat := by omega
  -- the last word to be read begins inside the fuse space, so all of them are in it
  have room : addr.toNat / 4 + (min buffer.length fuseBytes + 3) / 4 ≤ 64 := by
    unfold fuseBytes at in_range some_bytes ⊢
    omega
  have words : Succeeds FuseMacro.hardware
      (withClock (readWords (Offset.shadow + addr.toNat) ((min buffer.length fuseBytes + 3) / 4)))
      (fun ws _ => ws = (m.shadow.toList.drop (addr.toNat / 4)).take
        ((min buffer.length fuseBytes + 3) / 4)) m := by
    refine succeeds_lit m fun lit readable same => ?_
    rw [offset]
    exact ⟨_, _, yields_lift (FuseMacro.yields_readWords readable _ _ room), by rw [same]⟩
  refine words.bind (fun _ _ => ensures_done nofun) fun ws t read => ensures_done ?_
  rintro _ ⟨⟩
  have stretch := m.words_prefix (addr.toNat / 4) ((min buffer.length fuseBytes + 3) / 4)
  rw [place] at stretch
  refine ⟨_, ?_, rfl, ?_⟩
  · rw [read, List.length_take, Word.length_flatMap_toBytes, List.length_take, List.length_drop,
      Vector.length_toList]
    omega
  · rw [read]
    exact (List.take_prefix _ _).trans stretch

end Controller

/-- The stretch of fuse bytes in the answer to a successful read: where it begins, and its bytes. -/
def Call.page? (call : Call) (response : Response) : Option (Nat × List Byte) :=
  match call, response.result with
  | .readShadow addr, .ok (.number value) => some (addr.toNat, Word.toBytes (BitVec.ofNat 32 value))
  | .readBuffer addr _, .ok (.number n) => response.buffer.map fun bytes => (addr.toNat, bytes.take n)
  | .onFile _ (.read _), .ok (.number n) =>
    response.buffer.bind fun bytes => response.offset.map fun offset => (offset - n, bytes.take n)
  | .onFile _ (.control request _), .ok _ =>
    if request = readRequest then
      (response.buffer.bind AddressedWord.decode?).map fun x => (x.1.addr.toNat, x.1.value.toBytes)
    else none
  | _, _ => none

theorem Call.page?_control (file : Nat) (argument : List Byte) {request : Word}
    (h : request ≠ readRequest) (response : Response) :
    page? (.onFile file (.control request argument)) response = none := by
  obtain ⟨result, buffer, offset⟩ := response
  cases result with
  | error e => rfl
  | ok answer => exact if_neg h

/-- The answer to a call shows the fuse bytes as they were when the call began. -/
def Shows (m : FuseMacro) (call : Call) (response : Response) : Prop :=
  ∀ start bytes, call.page? response = some (start, bytes) → bytes <+: m.shadowBytes.drop start

theorem OpenFile.ensures_read (f : OpenFile) (buffer : List Byte) :
    Ensures FuseMacro.hardware (f.read buffer)
      (fun t _ => ∀ n, t.result = .ok n → ∃ page, page.length = n ∧ t.buffer = page ++ buffer.drop n ∧
        t.file.offset = f.offset + n ∧ page <+: m.shadowBytes.drop f.offset) m := by
  unfold read
  split
  · refine ensures_done ?_
    rintro _ ⟨⟩
    exact ⟨[], rfl, rfl, rfl, List.nil_prefix⟩
  rename_i inside
  have start : (BitVec.ofNat 32 f.offset).toNat = f.offset := by
    unfold fuseBytes at inside
    rw [BitVec.toNat_ofNat]
    omega
  refine (Controller.ensures_readBuffer m (BitVec.ofNat 32 f.offset) _).bind ?_
  rintro ⟨outcome, shown⟩ t hP
  cases outcome with
  | error e => exact ensures_done nofun
  | ok n =>
    refine ensures_done ?_
    rintro _ ⟨⟩
    obtain ⟨page, length, rfl, stretch⟩ := hP n rfl
    rw [start] at stretch
    have below : f.offset + n < offsetLimit := by
      have short : n ≤ (m.shadowBytes.drop f.offset).length := length ▸ stretch.length_le
      rw [List.length_drop, FuseMacro.shadowBytes, Word.length_flatMap_toBytes, Vector.length_toList] at short
      unfold fuseBytes at inside
      unfold offsetLimit
      omega
    refine ⟨page, length, ?_, offset_advance below, stretch⟩
    rw [List.take_left' length]

theorem OpenFile.ensures_control (f : OpenFile) (d : Device) (argument : List Byte) :
    Ensures FuseMacro.hardware (f.control d readRequest argument)
      (fun t _ => ∀ n, t.result = .ok n → ∃ payload rest, AddressedWord.decode? t.buffer =
        some (payload, rest) ∧ payload.value.toBytes <+: m.shadowBytes.drop payload.addr.toNat) m := by
  unfold control
  split
  · exact ensures_done nofun
  rename_i payload rest decoded
  rw [if_pos rfl]
  refine (Controller.succeeds_readShadow m payload.addr).bind (fun _ _ => ensures_done nofun)
    fun value t stretch => ensures_done fun _ _ => ?_
  exact ⟨{ payload with value }, rest, AddressedWord.decode?_encode _ rest, stretch⟩

theorem shows_of_none {call : Call} {response : Response} (h : call.page? response = none) :
    Shows m call response := by
  intro start bytes shown
  rw [h] at shown
  cases shown

theorem Session.ensures_shows (session : Session) (call : Call) :
    Ensures FuseMacro.hardware (session.perform call) (fun x _ => Shows m call x.1) m := by
  cases call with
  | readShadow addr =>
    refine (Controller.succeeds_readShadow m addr).bind
      (fun _ _ => ensures_done (shows_of_none m rfl)) fun value t stretch => ensures_done ?_
    rintro _ _ ⟨⟩
    have same : BitVec.ofNat 32 value.toNat = value := BitVec.ofNat_toNat 32 value
    rw [same]
    exact stretch
  | readBuffer addr buffer =>
    refine (Controller.ensures_readBuffer m addr buffer).bind fun x t hP => ensures_done ?_
    obtain ⟨outcome, shown⟩ := x
    cases outcome with
    | error e => exact shows_of_none m rfl
    | ok n =>
      rintro _ _ ⟨⟩
      obtain ⟨page, length, rfl, stretch⟩ := hP n rfl
      rw [List.take_left' length]
      exact stretch
  | onFile number call =>
    cases call with
    | read buffer =>
      refine (OpenFile.ensures_read m _ buffer).bind fun x t hP => ensures_done ?_
      obtain ⟨outcome, file, shown⟩ := x
      cases outcome with
      | error e => exact shows_of_none m rfl
      | ok n =>
        rintro _ _ ⟨⟩
        obtain ⟨page, length, rfl, offset, stretch⟩ := hP n rfl
        dsimp only at offset ⊢
        rw [List.take_left' length, offset, Nat.add_sub_cancel]
        exact stretch
    | control request argument =>
      by_cases read : request = readRequest
      · subst read
        refine (OpenFile.ensures_control m _ _ argument).bind fun x t hP => ensures_done ?_
        obtain ⟨outcome, file, shown⟩ := x
        cases outcome with
        | error e => exact shows_of_none m rfl
        | ok n =>
          obtain ⟨payload, rest, decoded, stretch⟩ := hP n rfl
          intro start bytes page
          change (if readRequest = readRequest then
            (AddressedWord.decode? shown).map fun x => (x.1.addr.toNat, x.1.value.toBytes)
            else none) = some (start, bytes) at page
          dsimp only at decoded
          rw [if_pos rfl, decoded] at page
          cases page
          exact stretch
      · exact (ensures_true _ m).imp fun x _ _ => shows_of_none m (Call.page?_control _ _ read x.1)
    | _ => exact (ensures_true _ m).imp fun x _ _ => shows_of_none m rfl
  | _ => exact (ensures_true _ m).imp fun x _ _ => shows_of_none m rfl

theorem Session.serve_ensures {σ : Type} {hw : Hardware σ} {session : Session} {s : σ} {call : Call}
    {Q : Response × Session → σ → Prop} (h : Ensures hw (session.perform call) Q s) {response : Response}
    (returned : (session.serve hw s (.call call)).response = some response) :
    ∃ session', Q (response, session') (session.serve hw s (.call call)).state := by
  rw [serve_call] at returned ⊢
  dsimp only at returned ⊢
  cases ended : (run hw (session.perform call) s).result with
  | error fault =>
    rw [ended] at returned
    cases returned
  | ok x =>
    rw [ended] at returned
    cases returned
    exact ⟨x.2, h x ended⟩

end FuseBank
