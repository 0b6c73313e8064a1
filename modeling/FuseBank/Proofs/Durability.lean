import FuseBank.Proofs.ImageReload
import FuseBank.Proofs.VerifiedWrites

/-!
Fuses on a bench, over any sequence of turns: steps of the session, settings changed in between, and
images saved and loaded. Bits that a read has shown or a successful write has asked for are in every
later read (`writes_endure`).

The argument needs no history. A byte of the shadow registers that has been seen stays covered, because
the shadow registers only gain bits; a read shows the shadow registers as they are.
-/

namespace FuseBank
open Routine

namespace FuseMacro

inductive Built : FuseMacro → Prop where
  | blank : Built blank
  | withRows (rows : Rows) : Built (ofRows rows)
  | loaded {m : FuseMacro} {path : String} {world : Workbench}
      (h : ((load path : StateM Workbench _).run world).1 = .ok m) : Built m

theorem Built.eq_ofRows {m : FuseMacro} (h : m.Built) : ∃ rows, m = ofRows rows := by
  cases h with
  | blank => exact ⟨_, rfl⟩
  | withRows rows => exact ⟨rows, rfl⟩
  | loaded h => exact load_fresh _ _ h

end FuseMacro

inductive Setting where
  | stuck (index : Nat) (mask : Word)
  | weak (index : Nat) (mask : Word)
  | busyPolls (polls : Word)
  | hang (on : Bool)
  | clockFailing (on : Bool)

namespace FuseMacro

def adjust (m : FuseMacro) : Setting → Except Fault FuseMacro
  | .stuck index mask => m.setStuck index mask
  | .weak index mask => m.setWeak index mask
  | .busyPolls polls => .ok { m with busyPolls := polls }
  | .hang on => .ok { m with hang := on }
  | .clockFailing on => .ok { m with clock := { m.clock with failing := on } }

theorem grows_adjust {m m' : FuseMacro} {setting : Setting} (h : m.adjust setting = .ok m') :
    Grows m m' := by
  have mapped {f : Rows → FuseMacro} {x : Except Fault Rows} (h : x.map f = .ok m') :
      ∃ rows, m' = f rows := by
    cases x with
    | error _ => cases h
    | ok rows =>
      cases h
      exact ⟨rows, rfl⟩
  cases setting with
  | stuck index mask =>
    obtain ⟨_, rfl⟩ := mapped h
    exact .of_eq rfl rfl
  | weak index mask =>
    obtain ⟨_, rfl⟩ := mapped h
    exact .of_eq rfl rfl
  | busyPolls polls =>
    cases h
    exact .of_eq rfl rfl
  | hang on =>
    cases h
    exact .of_eq rfl rfl
  | clockFailing on =>
    cases h
    exact .of_eq rfl rfl

theorem grows_ofRows (m : FuseMacro) : Grows m (ofRows m.rows) := by
  have rows (r : Rows) : (ofRows r).rows = r := rfl
  have shadow (r : Rows) : (ofRows r).shadow = r.words := rfl
  exact .of_reload (rows _) (shadow _)

theorem grows_attachClock (m : FuseMacro) : Grows m m.attachClock := .of_eq rfl rfl

end FuseMacro

/-- A session and the macro that it works on. -/
structure Bench where
  session : Session
  fuses : FuseMacro

inductive Act where
  | serve (step : Step)
  | adjust (setting : Setting)
  | reload (world : Workbench) (path : String) (config : Config)

/-- An act and what came of it. -/
structure Turn where
  act : Act
  response : Option Response := none
  visited : List FuseMacro
  after : Bench

namespace Bench

def start (config : Config) (fuses : FuseMacro) : Bench := ⟨{ device := .ofConfig config }, fuses.attachClock⟩

def adjusted (bench : Bench) (setting : Setting) : Bench :=
  match bench.fuses.adjust setting with
  | .error _ => bench
  | .ok fuses => { bench with fuses }

def reloaded (bench : Bench) (world : Workbench) (path : String) (config : Config) : Bench :=
  match ((bench.fuses.reload path : StateM Workbench _).run world).1 with
  | .error _ => bench
  | .ok loaded => .start config loaded

def turn (bench : Bench) (act : Act) : Turn :=
  match act with
  | .serve step =>
    let served := bench.session.serve FuseMacro.hardware bench.fuses step
    { act
      response := served.response
      visited := visits FuseMacro.hardware (bench.session.answer step) bench.fuses
      after := ⟨served.session, served.state⟩ }
  | .adjust setting =>
    let after := bench.adjusted setting
    { act, visited := [after.fuses], after }
  | .reload world path config =>
    let after := bench.reloaded world path config
    { act, visited := [after.fuses], after }

def turns : Bench → List Act → List Turn
  | _, [] => []
  | bench, act :: acts =>
    let turn := bench.turn act
    turn :: turn.after.turns acts

theorem turn_act (bench : Bench) (act : Act) : (bench.turn act).act = act := by
  cases act <;> rfl

theorem grows_adjusted (bench : Bench) (setting : Setting) :
    FuseMacro.Grows bench.fuses (bench.adjusted setting).fuses := by
  unfold adjusted
  split
  · exact .of_eq rfl rfl
  · exact FuseMacro.grows_adjust ‹_›

theorem grows_reloaded (bench : Bench) (world : Workbench) (path : String) (config : Config) :
    FuseMacro.Grows bench.fuses (bench.reloaded world path config).fuses := by
  unfold reloaded
  split
  · exact .of_eq rfl rfl
  · rename_i loaded h
    rw [FuseMacro.reload_rows bench.fuses path world h]
    exact (FuseMacro.grows_ofRows bench.fuses).trans (FuseMacro.grows_attachClock _)

theorem grows_turn (bench : Bench) (act : Act) :
    FuseMacro.Grows bench.fuses (bench.turn act).after.fuses ∧
    ∀ m ∈ (bench.turn act).visited, FuseMacro.Grows bench.fuses m := by
  cases act with
  | serve step =>
    exact ⟨FuseMacro.grows_run (.inr rfl) (bench.session.answer step) bench.fuses,
      FuseMacro.grows_visits (.inr rfl) (bench.session.answer step) bench.fuses⟩
  | adjust setting =>
    refine ⟨bench.grows_adjusted setting, fun m visited => ?_⟩
    obtain rfl := List.mem_singleton.1 visited
    exact bench.grows_adjusted setting
  | reload world path config =>
    refine ⟨bench.grows_reloaded world path config, fun m visited => ?_⟩
    obtain rfl := List.mem_singleton.1 visited
    exact bench.grows_reloaded world path config

theorem mem_turns {bench : Bench} {acts : List Act} {t : Turn} (h : t ∈ bench.turns acts) :
    ∃ (earlier : Bench) (act : Act), t = earlier.turn act ∧ FuseMacro.Grows bench.fuses earlier.fuses := by
  induction acts generalizing bench with
  | nil => cases h
  | cons act acts ih =>
    obtain rfl | later := List.mem_cons.1 h
    · exact ⟨bench, act, rfl, .of_eq rfl rfl⟩
    · obtain ⟨earlier, act', same, grown⟩ := ih later
      exact ⟨earlier, act', same, (bench.grows_turn act).1.trans grown⟩

end Bench

namespace FuseMacro

variable {m m' : FuseMacro} {k : Nat} {b : Byte}

/-- The shadow registers show at least the bits of `b` in their byte `k`. -/
def KeepsByte (m : FuseMacro) (k : Nat) (b : Byte) : Prop :=
  ∃ c, m.shadowBytes[k]? = some c ∧ b &&& c = b

theorem Grows.keepsByte (h : Grows m m') (sound : m.Sound) (kept : m.KeepsByte k b) :
    m'.KeepsByte k b := by
  obtain ⟨c, shown, covered⟩ := kept
  obtain ⟨i, place, -⟩ := getElem?_shadowBytes.1 shown
  have later : m'.shadowBytes[k]? = some ((m'.shadow.get i).byteAt (k % 4)) :=
    getElem?_shadowBytes.2 ⟨i, place, rfl⟩
  have grown := h.bytes sound shown later
  refine ⟨_, later, ?_⟩
  rw [← covered, BitVec.and_assoc, grown]

theorem Holds.keepsByte {a : AddressedWord} (h : m.Holds a) {j : Nat} (inside : j < 4) :
    m.KeepsByte (a.addr.toNat + j) (a.value.byteAt j) := by
  obtain ⟨i, place, covers⟩ := h
  have word : i.val = (a.addr.toNat + j) / 4 := by omega
  have byte : (a.addr.toNat + j) % 4 = j := by omega
  refine ⟨(m.shadow.get i).byteAt j, getElem?_shadowBytes.2 ⟨i, word, by rw [byte]⟩, ?_⟩
  rw [← Word.byteAt_and, covers]

end FuseMacro

def Response.number? (response : Response) : Option Nat :=
  match response.result with
  | .ok (.number n) => some n
  | _ => none

theorem Response.number?_eq {response : Response} {n : Nat} :
    response.number? = some n ↔ response.result = .ok (.number n) := by
  unfold number?
  split
  · simp [*]
  · simp_all

namespace Turn

variable (t : Turn)

def Answers (call : Call) (n : Nat) : Prop :=
  t.act = .serve (.call call) ∧ t.response.bind Response.number? = some n

def Wrote (a : AddressedWord) : Prop :=
  ∃ call, t.act = .serve (.call call) ∧ call.write? = some a ∧ t.response.any (·.result.isOk) = true

def Shows (k : Nat) (b : Byte) : Prop :=
  ∃ call start bytes, t.act = .serve (.call call) ∧ t.response.bind call.page? = some (start, bytes) ∧
    start ≤ k ∧ bytes[k - start]? = some b

def Leaves (k : Nat) (b : Byte) : Prop :=
  t.Shows k b ∨ ∃ a j, t.Wrote a ∧ j < 4 ∧ k = a.addr.toNat + j ∧ b = a.value.byteAt j

variable {t}

theorem Answers.shows {addr v : Word} (h : t.Answers (.readShadow addr) v.toNat) {j : Nat}
    (inside : j < 4) : t.Shows (addr.toNat + j) (v.byteAt j) := by
  obtain ⟨asked, answer⟩ := h
  obtain ⟨response, returned, number⟩ := Option.bind_eq_some_iff.1 answer
  have page : (Call.readShadow addr).page? response = some (addr.toNat, v.toBytes) := by
    obtain ⟨result, buffer, offset⟩ := response
    obtain rfl := Response.number?_eq.1 number
    have same : BitVec.ofNat 32 v.toNat = v := BitVec.ofNat_toNat 32 v
    change some (addr.toNat, Word.toBytes (BitVec.ofNat 32 v.toNat)) = _
    rw [same]
  refine ⟨_, addr.toNat, v.toBytes, asked, ?_, Nat.le_add_right _ _, ?_⟩
  · rw [returned]
    exact page
  · rw [Nat.add_sub_cancel_left]
    match j, inside with
    | 0, _ | 1, _ | 2, _ | 3, _ => rfl

end Turn

namespace Bench

variable {bench : Bench} {act : Act} {k : Nat} {b : Byte}

theorem turn_ensures {call : Call} {response : Response} {Q : Response × Session → FuseMacro → Prop}
    (h : Ensures FuseMacro.hardware (bench.session.perform call) Q bench.fuses)
    (asked : (bench.turn act).act = .serve (.call call))
    (returned : (bench.turn act).response = some response) :
    ∃ session, Q (response, session) (bench.turn act).after.fuses := by
  rw [turn_act] at asked
  subst asked
  exact bench.session.serve_ensures h returned

theorem turn_shows (h : (bench.turn act).Shows k b) : bench.fuses.shadowBytes[k]? = some b := by
  obtain ⟨call, start, bytes, asked, page, from_start, byte⟩ := h
  obtain ⟨response, returned, shown⟩ := Option.bind_eq_some_iff.1 page
  obtain ⟨session, shows⟩ := turn_ensures (bench.session.ensures_shows bench.fuses call) asked returned
  obtain ⟨rest, stretch⟩ := shows start bytes shown
  have inside : k - start < bytes.length := (List.getElem?_eq_some_iff.1 byte).1
  have place : start + (k - start) = k := by omega
  rw [← List.getElem?_append_left inside, stretch, List.getElem?_drop, place] at byte
  exact byte

theorem turn_wrote {a : AddressedWord} (h : (bench.turn act).Wrote a) :
    (bench.turn act).after.fuses.Holds a := by
  obtain ⟨call, asked, writes, success⟩ := h
  obtain ⟨some_response, isOk⟩ := (Option.any_eq_true_iff_get _ _).1 success
  obtain ⟨session, written⟩ := turn_ensures (bench.session.ensures_written bench.fuses call) asked
    (Option.some_get some_response).symm
  cases result : ((bench.turn act).response.get some_response).result with
  | error e =>
    rw [result] at isOk
    cases isOk
  | ok answer => exact written a answer writes result

theorem turn_row {index : Word} {n : Nat} (h : (bench.turn act).Answers (.readPhysical index 0) n) :
    n = (bench.fuses.rows.get (Address.readRow index)).toNat := by
  obtain ⟨asked, answer⟩ := h
  obtain ⟨response, returned, number⟩ := Option.bind_eq_some_iff.1 answer
  obtain ⟨session, row⟩ := turn_ensures (bench.session.ensures_row bench.fuses index) asked returned
  exact row n (Response.number?_eq.1 number)

theorem turn_leaves (sound : bench.fuses.Sound) (h : (bench.turn act).Leaves k b) :
    (bench.turn act).after.fuses.KeepsByte k b := by
  obtain shown | ⟨a, j, wrote, inside, rfl, rfl⟩ := h
  · have kept : bench.fuses.KeepsByte k b := ⟨b, turn_shows shown, BitVec.and_self⟩
    exact (bench.grows_turn act).1.keepsByte sound kept
  · exact (turn_wrote wrote).keepsByte inside

end Bench

/-- What an earlier turn leaves is in everything that a later one shows. -/
structure Endures (x y : Turn) : Prop where
  written : ∀ (a : AddressedWord) (v : Word), x.Wrote a → y.Answers (.readShadow a.addr) v.toNat →
    v.Covers a.value
  reread : ∀ addr v w : Word, x.Answers (.readShadow addr) v.toNat →
    y.Answers (.readShadow addr) w.toNat → w.Covers v
  bytes : ∀ k b c, x.Leaves k b → y.Shows k c → b &&& c = b
  rows : ∀ index v w : Word, x.Answers (.readPhysical index 0) v.toNat →
    y.Answers (.readPhysical index 0) w.toNat → w.Covers v

namespace Bench

theorem endures_turn {bench later : Bench} {act act' : Act} (sound : bench.fuses.Sound)
    (grown : FuseMacro.Grows (bench.turn act).after.fuses later.fuses) :
    Endures (bench.turn act) (later.turn act') := by
  have soundAfter := (bench.grows_turn act).1.sound sound
  have bytes : ∀ k b c, (bench.turn act).Leaves k b → (later.turn act').Shows k c → b &&& c = b := by
    intro k b c leaves shows
    obtain ⟨d, kept, covered⟩ := grown.keepsByte soundAfter (turn_leaves sound leaves)
    rw [turn_shows shows] at kept
    cases kept
    exact covered
  refine ⟨?_, ?_, bytes, ?_⟩
  · intro a v wrote answers
    exact Word.covers_of_bytes fun j inside =>
      bytes _ _ _ (.inr ⟨a, j, wrote, inside, rfl, rfl⟩) (answers.shows inside)
  · intro addr v w before answers
    exact Word.covers_of_bytes fun j inside =>
      bytes _ _ _ (.inl (before.shows inside)) (answers.shows inside)
  · intro index v w before answers
    have shown := BitVec.eq_of_toNat_eq (turn_row before)
    have shown' := BitVec.eq_of_toNat_eq (turn_row answers)
    rw [shown, shown']
    exact ((bench.grows_turn act).1.trans grown).rows _

theorem pairwise_endures {bench : Bench} (sound : bench.fuses.Sound) (acts : List Act) :
    (bench.turns acts).Pairwise Endures := by
  induction acts generalizing bench with
  | nil => exact .nil
  | cons act acts ih =>
    -- the bench of a later turn has grown from the one that this turn leaves
    refine .cons (fun t later => ?_) (ih ((bench.grows_turn act).1.sound sound))
    obtain ⟨earlier, act', rfl, grown⟩ := mem_turns later
    exact endures_turn sound grown

theorem sound_visited {bench : Bench} (sound : bench.fuses.Sound) (acts : List Act) :
    ∀ m ∈ (bench.turns acts).flatMap Turn.visited, m.Sound := by
  intro m visited
  obtain ⟨t, taken, here⟩ := List.mem_flatMap.1 visited
  obtain ⟨earlier, act, rfl, grown⟩ := mem_turns taken
  exact ((earlier.grows_turn act).2 m here).sound (grown.sound sound)

end Bench

/-- On a macro that was built blank, with rows or from an image, whatever the sessions do and whatever the
bench does in between: the shadow registers never show a bit that the rows do not hold, and what was
read or successfully written stays in all later reads. -/
theorem writes_endure {fuses : FuseMacro} (built : fuses.Built) (config : Config) (acts : List Act) :
    let bench := Bench.start config fuses
    (∀ m ∈ bench.fuses :: (bench.turns acts).flatMap Turn.visited, m.Sound) ∧
    (bench.turns acts).Pairwise Endures := by
  intro bench
  obtain ⟨rows, rfl⟩ := built.eq_ofRows
  have sound : bench.fuses.Sound :=
    (FuseMacro.grows_attachClock _).sound (FuseMacro.sound_ofRows rows)
  exact ⟨List.forall_mem_cons.2 ⟨sound, bench.sound_visited sound acts⟩,
    bench.pairwise_endures sound acts⟩

theorem writes_endure_reloaded :
    let bench := Bench.start { programmingEnabled := true } .blank
    let turns := bench.turns [.adjust (.stuck 6 1), .serve (.call (.write 12 5)), .adjust (.weak 7 5),
      .reload {} "f" {}, .serve (.call (.readShadow 12)), .serve (.restart {}),
      .serve (.call (.readShadow 12))]
    FuseMacro.blank.Built ∧
    (turns.map fun t => t.response.bind Response.number?) = [none, none, none, none, some 5, none, some 5] ∧
    (∀ m ∈ bench.fuses :: turns.flatMap Turn.visited, m.Sound) ∧ turns.Pairwise Endures := by
  intro bench turns
  have built : FuseMacro.blank.Built := .blank
  refine ⟨built, ?_, writes_endure built _ _⟩
  have reaches : ({} : WorkDirectory).Reaches "f" "f" :=
    WorkDirectory.reaches_name _ (by decide) (by simp) (by decide)
  have reloaded (bench : Bench) : (bench.turn (.reload {} "f" {})).after =
      .start {} (FuseMacro.ofRows bench.fuses.rows) := by
    have back := bench.fuses.reload_entry "f" {} reaches
    change bench.reloaded {} "f" {} = _
    rw [Bench.reloaded, back]
  simp only [turns, Bench.turns, reloaded]
  decide +kernel

end FuseBank
