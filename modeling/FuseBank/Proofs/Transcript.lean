import FuseBank.Proofs.RangeCheck
import FuseBank.Proofs.CommandHistory

/-!
Steps one after another, with what came of each: the answer, the traffic, and the session and the
hardware that the next step finds. `transcript_induction` carries an invariant along, and the traffic
of all steps in a row is the history of the session.
-/

namespace FuseBank
open Routine

variable {σ : Type}

namespace AddressedWord

theorem decode?_front {bytes : List Byte} (long : 8 ≤ bytes.length) :
    ∃ payload, decode? bytes = some (payload, bytes.drop 8) ∧ payload.encode = bytes.take 8 := by
  match bytes, long with
  | _ :: _ :: _ :: _ :: _ :: _ :: _ :: _ :: rest, _ =>
    exact ⟨_, rfl, by simp [encode, Word.toBytes_ofBytes]⟩

theorem decode?_of_length {bytes : List Byte} (length : bytes.length = 8) :
    ∃ payload, decode? bytes = some (payload, []) := by
  obtain ⟨payload, decoded, -⟩ := decode?_front (Nat.le_of_eq length.symm)
  rw [List.drop_eq_nil_of_le (Nat.le_of_eq length)] at decoded
  exact ⟨payload, decoded⟩

theorem addr_of_front {payload : AddressedWord} {bytes : List Byte}
    (front : payload.encode = bytes.take 8) : payload.addr.toBytes = bytes.take 4 := by
  have taken := congrArg (List.take 4) front
  rw [List.take_take] at taken
  exact taken

end AddressedWord

theorem getD_set_self {α : Type} (xs : List α) (i : Nat) (default : α) :
    xs.set i (xs.getD i default) = xs := by
  by_cases inside : i < xs.length
  · simp [inside]
  · exact List.set_eq_of_length_le (Nat.le_of_not_lt inside)

def Call.IsRead : Call → Prop
  | .readShadow _ | .readBuffer _ _ | .readPhysical _ _ => True
  | _ => False

def Call.write? : Call → Option AddressedWord
  | .write addr value => some ⟨addr, value⟩
  | .onFile _ (.write data) =>
    match AddressedWord.decode? data with
    | some (payload, []) => some payload
    | _ => none
  | .onFile _ (.control request argument) =>
    if request = writeRequest then (AddressedWord.decode? argument).map Prod.fst else none
  | _ => none

theorem Call.write?_write {file : Nat} {data : List Byte} {a : AddressedWord} :
    write? (.onFile file (.write data)) = some a ↔ AddressedWord.decode? data = some (a, []) := by
  change (match AddressedWord.decode? data with
    | some (payload, []) => some payload
    | _ => none) = some a ↔ _
  constructor
  · intro asked
    split at asked
    · cases asked
      assumption
    · cases asked
  · intro decoded
    rw [decoded]

theorem Call.write?_control {file : Nat} {request : Word} {argument : List Byte} {a : AddressedWord} :
    write? (.onFile file (.control request argument)) = some a ↔
      request = writeRequest ∧ ∃ rest, AddressedWord.decode? argument = some (a, rest) := by
  change (if request = writeRequest then (AddressedWord.decode? argument).map Prod.fst
    else none) = some a ↔ _
  split
  · simp [*]
  · simp [*]

theorem Call.IsRead.write?_eq {call : Call} (h : call.IsRead) : call.write? = none := by
  cases call <;> first | rfl | cases h

/-- What came of one step. Only a call that returned has a response. -/
structure Served (σ : Type) where
  response : Option Response
  session : Session
  traffic : List Event
  state : σ

namespace Session

def answer (session : Session) : Step → Routine (Option Response × Session)
  | .call call => do
    let (response, session) ← session.perform call
    return (some response, session)
  | .restart config => do
    Device.shutdown
    return (none, { device := ← Device.start config })

theorem step_eq (session : Session) (step : Step) :
    session.step step = (session.answer step >>= fun x => done x.2) := by
  cases step with
  | call call =>
    change _ = ((session.perform call >>= fun x => done (some x.1, x.2)) >>= fun x => done x.2)
    rw [bind_assoc]
    rfl
  | restart config =>
    change _ = ((Device.shutdown >>= fun _ => Device.start config >>= fun device =>
      done (none, ({ device } : Session))) >>= fun x => done x.2)
    simp only [bind_assoc]
    rfl

theorem keeps_answer (session : Session) {downs : Prop} {step : Step}
    (allowed : ∀ config, step = .restart config → downs) :
    (session.answer step).Keeps (Admitted (fun _ => True) True downs) := by
  cases step with
  | call call => exact (keeps_perform session (fun _ => trivial) call).bind fun _ => keeps_done _
  | restart config =>
    refine (Device.keeps_shutdown (allowed config rfl)).bind fun _ => ?_
    exact (Device.keeps_start config).bind fun _ => keeps_done _

theorem haltsOnly_answer (session : Session) (step : Step) : (session.answer step).HaltsOnly fun fault =>
    fault = .overflow ∧ ∃ call, step = .call call ∧ session.Overflows call := by
  cases step with
  | call call =>
    refine ((session.haltsOnly_perform call).imp fun fault ⟨same, overflows⟩ => ?_).bind fun _ => trivial
    exact ⟨same, call, rfl, overflows⟩
  | restart config =>
    exact Device.haltsOnly_shutdown.bind fun _ => (Device.haltsOnly_start config).bind fun _ => trivial

theorem haltsOnly_step (session : Session) (step : Step) : (session.step step).HaltsOnly fun fault =>
    fault = .overflow ∧ ∃ call, step = .call call ∧ session.Overflows call := by
  rw [step_eq]
  exact (session.haltsOnly_answer step).bind fun _ => trivial

def serve (hw : Hardware σ) (session : Session) (s : σ) (step : Step) : Served σ :=
  let r := run hw (session.answer step) s
  { response := r.result.toOption.bind Prod.fst
    session := (r.result.toOption.map Prod.snd).getD session
    traffic := r.traffic
    state := r.state }

theorem prepared_device (session : Session) (call : Call) :
    (session.prepared call).device = session.device := by
  cases call with
  | onFile number call =>
    change (if session.files.isEmpty then { session with files := [{}] } else session).device = _
    split
    · rfl
    · rfl
  | _ => rfl

theorem along_device (session : Session) (call : Call) :
    (session.perform call).Along (fun _ _ => True) (fun x _ => x.2.device = session.device) none := by
  cases call with
  | programmingEnabled => rfl
  | openFile => rfl
  | readShadow addr => exact (keeps_any _ none).rewrap _ fun _ _ _ => rfl
  | readBuffer addr buffer => exact (keeps_any _ none).rewrap _ fun _ _ _ => rfl
  | readPhysical index mode => exact (keeps_any _ none).rewrap _ fun _ _ _ => rfl
  | programBit word bit row => exact (keeps_any _ none).rewrap _ fun _ _ _ => rfl
  | writeWord word value => exact (keeps_any _ none).rewrap _ fun _ _ _ => rfl
  | write addr value => exact (keeps_any _ none).rewrap _ fun _ _ _ => rfl
  | onFile number call =>
    have same := session.prepared_device (.onFile number call)
    cases call with
    | tell => exact same
    | seek target => exact same
    | read buffer => exact (keeps_any _ none).rewrap _ fun _ _ _ => same
    | write data => exact (keeps_any _ none).rewrap _ fun _ _ _ => same
    | control request argument => exact (keeps_any _ none).rewrap _ fun _ _ _ => same

theorem serve_call (hw : Hardware σ) (session : Session) (s : σ) (call : Call) :
    session.serve hw s (.call call) =
      let r := run hw (session.perform call) s
      { response := r.result.toOption.map Prod.fst
        session := (r.result.toOption.map Prod.snd).getD session
        traffic := r.traffic
        state := r.state } := by
  have answer : session.answer (.call call) =
      (session.perform call >>= fun x => done (some x.1, x.2)) := rfl
  obtain ⟨events, state⟩ := run_bind_done hw (session.perform call) (fun x => (some x.1, x.2)) s
  have result := result_bind_done hw (session.perform call) (fun x => (some x.1, x.2)) s
  simp only [serve, answer, result, state, Run.traffic, events]
  cases (run hw (session.perform call) s).result <;> rfl

theorem serve_device (hw : Hardware σ) (session : Session) (s : σ) (step : Step) :
    (session.serve hw s step).session.device = session.device ∨
    ∃ config, step = .restart config ∧
      (session.serve hw s step).session.device = .ofConfig config := by
  have sends := sends_run hw (session.answer step) s
  unfold serve
  dsimp only
  cases returned : (run hw (session.answer step) s).result.toOption with
  | none => exact .inl rfl
  | some x =>
    rw [returned] at sends
    cases step with
    | call call =>
      have along := (session.along_device call).rewrap (P := fun x _ => x.2.device = session.device)
        (fun x => (some x.1, x.2)) fun _ _ same => same
      exact .inl (along.ended sends)
    | restart config =>
      have along : (session.answer (.restart config)).Along (fun _ _ => True)
          (fun x _ => x.2.device = .ofConfig config) none := by
        refine (keeps_any Device.shutdown none).bind fun _ last _ => ?_
        unfold Device.start
        split
        · rfl
        · rfl
      exact .inr ⟨config, rfl, along.ended sends⟩

def transcript (hw : Hardware σ) : Session → σ → List Step → List (Step × Served σ)
  | _, _, [] => []
  | session, s, step :: steps =>
    let served := session.serve hw s step
    (step, served) :: transcript hw served.session served.state steps

def after (hw : Hardware σ) : Session → σ → List Step → Session × σ
  | session, s, [] => (session, s)
  | session, s, step :: steps =>
    let served := session.serve hw s step
    after hw served.session served.state steps

variable {hw : Hardware σ} {session : Session} {s : σ} {steps : List Step}

/-- What every step shows if each keeps an invariant that makes it show it. -/
theorem transcript_induction {I : Session → σ → Prop} {P : Step → Served σ → Prop}
    (start : I session s) (kept : ∀ session s step, step ∈ steps → I session s →
      P step (session.serve hw s step) ∧
        I (session.serve hw s step).session (session.serve hw s step).state) :
    ∀ x ∈ session.transcript hw s steps, P x.1 x.2 := by
  induction steps generalizing session s with
  | nil => simp [transcript]
  | cons step steps ih =>
    obtain ⟨shown, next⟩ := kept session s step (by simp) start
    intro x hx
    obtain rfl | hx := List.mem_cons.1 hx
    · exact shown
    · exact ih next (fun session s step h => kept session s step (List.mem_cons_of_mem _ h)) x hx

theorem transcript_traffic (session : Session) (s : σ) (steps : List Step) :
    (session.transcript hw s steps).flatMap (fun x => x.2.traffic) = session.history hw s steps := by
  induction steps generalizing session s with
  | nil => rfl
  | cons step steps ih =>
    have split := run_bind_done hw (session.answer step) Prod.snd s
    have result := result_bind_done hw (session.answer step) Prod.snd s
    rw [← step_eq] at split result
    simp only [transcript, history, List.flatMap_cons, ih, serve, Run.traffic, split, result]

end Session

end FuseBank
