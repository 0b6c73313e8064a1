import FuseBank.Proofs.FailedCalls
import FuseBank.Proofs.Transcript

/-!
Writes and control requests on an open file, on any hardware. Each that comes with a whole payload and a
known request runs as the device's own call with the two words of the payload: the same accesses, the same
state and the same error, with the file and the caller's buffer added to the result, as long as there is an
offset for the file to move to (`file_calls_relay`). All others are answered without the hardware.
-/

namespace FuseBank
open Routine Operation

variable {σ : Type}

namespace AddressedWord

theorem decode?_short {bytes : List Byte} (short : bytes.length < 8) : decode? bytes = none := by
  cases decoded : decode? bytes with
  | none => rfl
  | some found =>
    obtain ⟨payload, rest⟩ := found
    have length : payload.encode.length = 8 := rfl
    rw [← encode_of_decode? decoded, List.length_append] at short
    omega

end AddressedWord

namespace OpenFile

variable (f : OpenFile) (d : Device) {bytes : List Byte} {a v : Word}

/-- How a write to a file ends if the write on the device ends so. -/
def afterWrite (f : OpenFile) (data : List Byte) : Except DeviceError WriteReport → Transfer
  | .error e => ⟨.error e, f, data⟩
  | .ok _ => ⟨.ok 8, f.advance 8, data⟩

def afterControl {α : Type} (f : OpenFile) (argument : List Byte) (answered : α → List Byte) :
    Except DeviceError α → Transfer
  | .error e => ⟨.error e, f, argument⟩
  | .ok answer => ⟨.ok 0, f, answered answer⟩

theorem run_write_whole (hw : Hardware σ) (s : σ) (length : bytes.length = 8)
    (decoded : AddressedWord.decode? bytes = some (⟨a, v⟩, bytes.drop 8)) :
    let written := run hw (f.write d bytes) s
    let device := run hw (d.write a v).run s
    written.state = device.state ∧ written.events = device.events ∧
    ((∀ report, device.result = .ok (.ok report) → f.offset + 8 < offsetLimit) →
      written.result = device.result.map (f.afterWrite bytes)) := by
  intro written device
  have nothing : bytes.drop 8 = [] := List.drop_eq_nil_of_le (Nat.le_of_eq length)
  have ended : written = device.andThen fun outcome t => run hw (match outcome with
      | .error e => done ⟨.error e, f, bytes⟩
      | .ok _ => f.written bytes) t := by
    change run hw (f.write d bytes) s = _
    unfold write
    rw [decoded, nothing]
    exact run_bind ..
  rw [ended]
  unfold Run.andThen
  cases returned : device.result with
  | error fault => exact ⟨rfl, rfl, fun _ => rfl⟩
  | ok outcome =>
    cases outcome with
    | error e => exact ⟨rfl, List.append_nil _, fun _ => rfl⟩
    | ok report =>
      dsimp only
      unfold OpenFile.written
      rw [length]
      by_cases room : f.offset + 8 < offsetLimit
      · rw [if_pos room]
        exact ⟨rfl, List.append_nil _, fun _ => rfl⟩
      · rw [if_neg room]
        exact ⟨rfl, List.append_nil _, fun fits => absurd (fits report rfl) room⟩

theorem write_mismatch (other : bytes.length ≠ 8) :
    f.write d bytes = done ⟨.error (.sizeMismatch bytes.length), f, bytes⟩ := by
  unfold write
  split
  · rename_i payload decoded
    have whole : payload.encode ++ [] = bytes := AddressedWord.encode_of_decode? decoded
    rw [← whole] at other
    exact absurd rfl other
  · rfl

theorem control_short (short : bytes.length < 8) (request : Word) :
    f.control d request bytes = done ⟨.error (.bufferFault bytes.length), f, bytes⟩ := by
  unfold control
  rw [AddressedWord.decode?_short short]
  rfl

section Requests

variable (decoded : AddressedWord.decode? bytes = some (⟨a, v⟩, bytes.drop 8))
include decoded

theorem control_write : f.control d writeRequest bytes =
    (d.write a v).run >>= fun outcome => done (f.afterControl bytes (fun _ => bytes) outcome) := by
  unfold control
  rw [decoded]
  dsimp only
  rw [if_neg (by decide), if_pos rfl]
  congr 1
  funext outcome
  cases outcome <;> rfl

theorem control_read (kept : a.toBytes = bytes.take 4) : f.control d readRequest bytes =
    (Device.readShadow a).run >>= fun outcome =>
      done (f.afterControl bytes (fun w => bytes.take 4 ++ w.toBytes ++ bytes.drop 8) outcome) := by
  unfold control
  rw [decoded]
  dsimp only
  rw [if_pos rfl, ← kept]
  congr 1
  funext outcome
  cases outcome <;> rfl

theorem control_unsupported {request : Word} (notRead : request ≠ readRequest)
    (notWrite : request ≠ writeRequest) : f.control d request bytes = (do
      Routine.note .error .charDevice s!"Unsupported eFUSE ioctl {Text.Hex.marked request.toNat}"
      return ⟨.error (.unsupportedRequest request), f, bytes⟩) := by
  unfold control
  rw [decoded]
  dsimp only
  rw [if_neg notRead, if_neg notWrite]

theorem control_unaided_ne {request : Word} (kept : a.toBytes = bytes.take 4) {t : Transfer}
    (answered : (f.control d request bytes).unaided? = some t) (n : Nat) :
    t.result ≠ .error (.bufferFault n) := by
  intro failed
  by_cases reads : request = readRequest
  · subst reads
    rw [f.control_read d decoded kept, Routine.unaided?_bind] at answered
    change (Controller.readShadow a).run.unaided?.bind _ = _ at answered
    rw [Controller.readShadow_unaided] at answered
    split at answered
    · cases answered
    · cases answered
      cases failed
  by_cases writes : request = writeRequest
  · subst writes
    rw [f.control_write d decoded, Routine.unaided?_bind, Device.write_unaided] at answered
    split at answered
    · split at answered
      · cases answered
      · cases answered
        cases failed
    · cases answered
      cases failed
  · rw [f.control_unsupported d decoded reads writes] at answered
    cases answered
    cases failed

end Requests

theorem control_file (request : Word) (argument : List Byte) :
    (f.control d request argument).Along (fun _ _ => True) (fun t _ => t.file = f) none := by
  unfold control
  split
  · rfl
  split
  · refine (keeps_any _ none).bind fun outcome _ _ => ?_
    cases outcome <;> rfl
  split
  · refine (keeps_any _ none).bind fun outcome _ _ => ?_
    cases outcome <;> rfl
  · rfl

theorem bufferFault_of_control {hw : Hardware σ} {s : σ} {request : Word} {t : Transfer} {n : Nat}
    (returned : (run hw (f.control d request bytes) s).result = .ok t)
    (failed : t.result = .error (.bufferFault n)) :
    bytes.length < 8 ∧ n = bytes.length ∨
      (run hw (f.control d request bytes) s).traffic = [.refused (.bufferFault n)] := by
  by_cases short : bytes.length < 8
  · rw [f.control_short d short] at returned
    cases returned
    cases failed
    exact .inl ⟨short, rfl⟩
  · obtain ⟨⟨a, v⟩, decoded, front⟩ := AddressedWord.decode?_front (Nat.le_of_not_lt short)
    cases asks : (f.control d request bytes).unaided? with
    | some answer =>
      obtain ⟨given, -⟩ := run_of_unaided hw s asks
      cases given.symm.trans returned
      exact absurd failed (f.control_unaided_ne d decoded (AddressedWord.addr_of_front front) asks n)
    | none =>
      -- the payload is whole, so the complaint can only be the answer of the clock
      exact .inr (refused_by_clock (f.along_control d request bytes)
        (f.failsUnmoved_control d request bytes) (fun _ _ => And.left) asks returned failed rfl)

end OpenFile

/-- Eight bytes written to a file, and eight or more of a control request, are an address and a value, and
the call runs as the device's own on these: it writes the value, or reads the word into its place. The file
moves by a write that succeeds and by nothing else, as long as its offset can go that far. Any other length
is an error before all else, and any other request the next, unless an error about the length is the
clock's own answer. -/
theorem file_calls_relay (hw : Hardware σ) (s : σ) (d : Device) (f : OpenFile) (request : Word)
    (bytes : List Byte) :
    let written := run hw (f.write d bytes) s
    let controlled := run hw (f.control d request bytes) s
    (bytes.length ≠ 8 → written = ⟨.ok ⟨.error (.sizeMismatch bytes.length), f, bytes⟩, s, []⟩) ∧
    (bytes.length < 8 → controlled = ⟨.ok ⟨.error (.bufferFault bytes.length), f, bytes⟩, s, []⟩) ∧
    (8 ≤ bytes.length → ∃ a v : Word, AddressedWord.decode? bytes = some (⟨a, v⟩, bytes.drop 8) ∧
      a.toBytes ++ v.toBytes = bytes.take 8 ∧
      let device := run hw (d.write a v).run s
      (bytes.length = 8 → written.state = device.state ∧ written.events = device.events ∧
        ((∀ report, device.result = .ok (.ok report) → f.offset + 8 < OpenFile.offsetLimit) →
          written.result = device.result.map (f.afterWrite bytes))) ∧
      (request = 0x40084502 → controlled = device.map (f.afterControl bytes fun _ => bytes)) ∧
      (request = 0x80084501 → controlled = (run hw (Device.readShadow a).run s).map
        (f.afterControl bytes fun w => bytes.take 4 ++ w.toBytes ++ bytes.drop 8)) ∧
      (request ≠ 0x40084502 → request ≠ 0x80084501 →
        controlled.result = .ok ⟨.error (.unsupportedRequest request), f, bytes⟩ ∧
        controlled.traffic = [] ∧ controlled.state = s)) ∧
    (f.offset + 8 < OpenFile.offsetLimit → (f.advance 8).offset = f.offset + 8) ∧
    ∀ t, controlled.result = .ok t → t.file = f ∧ ∀ n, t.result = .error (.bufferFault n) →
      bytes.length < 8 ∧ n = bytes.length ∨ controlled.traffic = [.refused (.bufferFault n)] := by
  intro written controlled
  refine ⟨fun other => ?_, fun short => ?_, fun long => ?_, OpenFile.offset_advance,
    fun t returned => ⟨?_, fun n failed => ?_⟩⟩
  · change run hw (f.write d bytes) s = _
    rw [f.write_mismatch d other]
    rfl
  · change run hw (f.control d request bytes) s = _
    rw [f.control_short d short]
    rfl
  · obtain ⟨⟨a, v⟩, decoded, front⟩ := AddressedWord.decode?_front long
    refine ⟨a, v, decoded, front, fun length => f.run_write_whole d hw s length decoded, ?_, ?_,
      fun notWrite notRead => ?_⟩
    · rintro rfl
      change run hw (f.control d writeRequest bytes) s = _
      rw [f.control_write d decoded, run_map]
    · rintro rfl
      change run hw (f.control d readRequest bytes) s = _
      rw [f.control_read d decoded (AddressedWord.addr_of_front front), run_map]
    · change (run hw (f.control d request bytes) s).result = _ ∧
        (run hw (f.control d request bytes) s).traffic = [] ∧ (run hw (f.control d request bytes) s).state = s
      rw [f.control_unsupported d decoded notRead notWrite]
      exact ⟨rfl, rfl, rfl⟩
  · exact (f.control_file d request bytes).ended (sends_of_returned returned)
  · exact f.bufferFault_of_control d returned failed

theorem file_calls_relay_spare :
    let d : Device := ⟨.ofLimit 1, true⟩
    let f : OpenFile := ⟨40⟩
    let bytes : List Byte := [12, 0, 0, 0, 5, 0, 0, 0, 0xbb]
    let requested (request : Word) := run FuseMacro.hardware (f.control d request bytes) FuseMacro.blank
    run FuseMacro.hardware (f.write d bytes) FuseMacro.blank =
      ⟨.ok ⟨.error (.sizeMismatch 9), f, bytes⟩, FuseMacro.blank, []⟩ ∧
    (∃ a v : Word, a.toBytes ++ v.toBytes = bytes.take 8 ∧ requested 0x40084502 =
      (run FuseMacro.hardware (d.write a v).run FuseMacro.blank).map (f.afterControl bytes fun _ => bytes)) ∧
    (requested 0x40084502).state.rows.get 6 = 5 ∧
    (requested 0x80084501).result.toOption.map Transfer.buffer = some [12, 0, 0, 0, 0, 0, 0, 0, 0xbb] ∧
    (requested 0x80084502).result = .ok ⟨.error (.unsupportedRequest 0x80084502), f, bytes⟩ := by
  intro d f bytes requested
  obtain ⟨mismatch, -, whole, -, -⟩ := file_calls_relay FuseMacro.hardware FuseMacro.blank d f 0x40084502 bytes
  obtain ⟨-, -, other, -, -⟩ := file_calls_relay FuseMacro.hardware FuseMacro.blank d f 0x80084502 bytes
  obtain ⟨a, v, -, front, -, writes, -, -⟩ := whole (by decide)
  obtain ⟨_, _, -, -, -, -, -, unsupported⟩ := other (by decide)
  refine ⟨mismatch (by decide), ⟨a, v, front, writes rfl⟩, ?_, ?_, (unsupported (by decide) (by decide)).1⟩
  · decide +kernel
  · decide +kernel

theorem file_calls_relay_unanswered :
    let d : Device := ⟨.ofLimit 1, true⟩
    let bytes : List Byte := [0, 0, 0, 0, 1, 0, 0, 0]
    let refusing : Hardware FuseMacro := ⟨FuseMacro.bus, .refusing FuseMacro (.bufferFault 3)⟩
    let requested := run refusing (OpenFile.control {} d readRequest bytes) FuseMacro.blank
    let device := run FuseMacro.hardware (d.write 0 1).run FuseMacro.blank
    let written := run FuseMacro.hardware (OpenFile.write ⟨0xfffffffffffffff8⟩ d bytes) FuseMacro.blank
    bytes.length = 8 ∧
    requested.result.toOption.map Transfer.result = some (.error (.bufferFault 3)) ∧
    (∃ report, device.result = .ok (.ok report)) ∧ device.state.rows.get 0 = 1 ∧
    written.result.toOption.map Transfer.result = none ∧ written.state.rows.get 0 = 1 := by
  -- A clock may answer a request of full length with an error about a length. And a word that is
  -- written where no offset is left for the file to move to is programmed, as by the device, with
  -- no answer.
  intro d bytes refusing requested device written
  refine ⟨rfl, by decide +kernel, ⟨⟨0, 1, .of 1 0 1, .of 1 0 1⟩, ?_⟩, ?_, ?_, ?_⟩
  · decide +kernel
  · decide +kernel
  · decide +kernel
  · decide +kernel

end FuseBank
