import FuseBank.Proofs.ImageReload
import FuseBank.Proofs.IntactMacro

/-!
The tool on one image file, launch after launch. Each launch loads the image, serves its command on the
macro and saves the image again; that is as good as one macro that is kept over all launches, because
what the image does not hold of a macro has no part in a command's answer (`serve_intact`). Of the system
this asks that the file can be looked up, read and written at its path (`Host.Holds`). What lies between
the launches may change anything else, so that every launch can have its own configuration.
-/

namespace FuseBank

variable {W : Type} [Host (StateM W)]

/-- The file that a path leads to on a system. It can be looked up, read and written there, and of these
only writing changes the system. -/
structure Host.Holds (file : W → Option (List Byte)) (path : String) (w : W) : Prop where
  fileExists : (Host.fileExists path : StateM W Bool).run w = ((file w).isSome, w)
  readFile : ∀ content ∈ file w, (Host.readFile path : StateM W _).run w = (.ok content, w)
  writeFile : ∀ content, ∃ w', (Host.writeFile path content : StateM W _).run w = (.ok (), w') ∧
    file w' = some content

namespace WorkDirectory

variable {d : WorkDirectory} {path name : String}

theorem find?_put_other (d : WorkDirectory) {other : String} (h : other ≠ name) (content : List Byte) :
    (d.put name content).find? other = d.find? other := by
  have unequal : (other == name) = false := by simpa using h
  unfold find? put
  rw [List.lookup_cons, unequal]
  dsimp only
  induction d.files with
  | nil => rfl
  | cons file files ih =>
    rw [List.filter_cons]
    by_cases same : file.1 = name
    · have missed : (other == file.1) = false := by rwa [same]
      rw [if_neg (by simpa using same), ih, List.lookup_cons, missed]
    · rw [if_pos (by simpa using same), List.lookup_cons, List.lookup_cons, ih]

theorem Reaches.fileExists (h : d.Reaches path name) : d.fileExists path = (d.find? name).isSome := by
  simp only [WorkDirectory.fileExists, h.plain, h.entry]
  rfl

end WorkDirectory

namespace Workbench

def file (name : String) (world : Workbench) : Option (List Byte) := world.directory.find? name

variable {world : Workbench} {path name : String}

theorem writeFile_entry (reaches : world.directory.Reaches path name) (content : List Byte) :
    (Host.writeFile path content : StateM Workbench _).run world =
      (.ok (), { world with directory := world.directory.put name content }) := by
  rw [world.writeFile_run, reaches.writeFile]

theorem holds_entry (reaches : world.directory.Reaches path name) :
    Host.Holds (file name) path world where
  fileExists := congrArg (·, world) reaches.fileExists
  readFile _ found := congrArg (·, world) (reaches.readFile found)
  writeFile content := ⟨_, writeFile_entry reaches content, WorkDirectory.find?_put _ _ _⟩

theorem writeFile_others (reaches : world.directory.Reaches path name) (content : List Byte) :
    let after := ((Host.writeFile path content : StateM Workbench _).run world).2
    (∀ other ≠ name, after.file other = world.file other) ∧ after.memory = world.memory := by
  intro after
  have written : after = _ := congrArg Prod.snd (writeFile_entry reaches content)
  rw [written]
  exact ⟨fun other differs => world.directory.find?_put_other differs content, rfl⟩

end Workbench

namespace Cli

/-- A launch of the tool: what its arguments ask for, and the system that it finds. -/
structure Launch (W : Type) where
  invocation : Invocation
  world : W

namespace Launch

variable (l : Launch W)

def result : Outcome × W := (run l.invocation : StateM W Outcome).run l.world

def outcome : Outcome := l.result.1

def found (file : W → Option (List Byte)) : Option (List Byte) := file l.world

def left (file : W → Option (List Byte)) : Option (List Byte) := file l.result.2

def config : Except Config.LoadError Config :=
  match ((loadConfig l.invocation.config : StateM W _).run l.world).1 with
  | .error e => .error e
  | .ok config =>
    let config := if l.invocation.enableProgramming then config.withProgramming true else config
    match config.check with
    | some flaw => .error (.invalid flaw)
    | none => .ok config

def burns? : Option AddressedWord :=
  match l.config with
  | .error _ => none
  | .ok config => l.invocation.command.burns? config.programmingEnabled

/-- The launch emulates the macro of an image file. Its own configuration, wherever it lies, is read and
nothing else. -/
structure Emulates (file : W → Option (List Byte)) : Prop where
  image : ∃ path, l.invocation.emulate = some path ∧ Host.Holds file path l.world
  configuration : ∀ path ∈ l.invocation.config,
    ((Host.readFile path : StateM W _).run l.world).2 = l.world

variable {l : Launch W} {file : W → Option (List Byte)}

theorem loadConfig_world (emulates : l.Emulates file) :
    ((loadConfig l.invocation.config : StateM W _).run l.world).2 = l.world := by
  cases given : l.invocation.config with
  | none => rfl
  | some path => exact emulates.configuration path given

theorem result_eq (emulates : l.Emulates file) : l.result =
    match l.config with
    | .error e => (.failed (.config e), l.world)
    | .ok config => (match l.invocation.emulate with
        | some path => runEmulated path config l.invocation.command
        | none => runHardware config l.invocation.command : StateM W Outcome).run l.world := by
  have unchanged := loadConfig_world emulates
  unfold config result run
  rw [StateT.run_bind]
  cases loaded : (loadConfig l.invocation.config : StateM W _).run l.world with
  | mk outcome world =>
    rw [loaded] at unchanged
    obtain rfl : world = l.world := unchanged
    cases outcome with
    | error e => rfl
    | ok config =>
      dsimp only [bind]
      generalize (if l.invocation.enableProgramming then config.withProgramming true else config) = config
      cases config.check with
      | some flaw => rfl
      | none => rfl

theorem openMacro_run {path : String} (holds : Host.Holds file path l.world)
    (size : ∀ image ∈ l.found file, image.length = FuseMacro.imageBytes) :
    ∃ lines : List Line, lines.filterMap Line.text? = [] ∧
      (openMacro path : StateM W _).run l.world =
        (.ok (FuseMacro.ofRows (Rows.ofImage (l.found file)), lines), l.world) := by
  have present : (Host.fileExists path : StateM W Bool).run l.world = ((l.found file).isSome, l.world) :=
    holds.fileExists
  unfold openMacro
  rw [StateT.run_bind, present]
  cases found : l.found file with
  | none => exact ⟨[.log ⟨.info, .tool, s!"Creating blank eFUSE image {path}"⟩], rfl, rfl⟩
  | some image =>
    have loaded : (FuseMacro.load path : StateM W _).run l.world =
        (.ok (FuseMacro.ofRows (Rows.ofImage (some image))), l.world) := by
      rw [FuseMacro.load_eq, StateT.run_bind, holds.readFile image found]
      exact congrArg (·, l.world) (FuseMacro.ofImage_eq path (size image found))
    refine ⟨[], rfl, ?_⟩
    change ((FuseMacro.load path : StateM W _) >>= _).run l.world = _
    rw [StateT.run_bind, loaded]
    rfl

theorem texts_after (lines : List Line) (logs : lines.filterMap Line.text? = []) (o : Outcome) :
    (o.after lines).texts = o.texts := by
  unfold Outcome.texts Outcome.after
  rw [List.filterMap_append, logs, List.nil_append]

theorem runEmulated_run {path : String} {w : W} {config : Config} {command : Command}
    {fuses fuses' : FuseMacro} {lines : List Line} {o : Outcome}
    (opened : (openMacro path : StateM W _).run l.world = (.ok (fuses, lines), l.world))
    (served : serve FuseMacro.hardware config command fuses.attachClock = (o, fuses'))
    (sound : ∀ fault, o.result ≠ .error (.fault fault))
    (saved : (Host.writeFile path fuses'.image : StateM W _).run l.world = (.ok (), w)) :
    (runEmulated path config command : StateM W Outcome).run l.world = (o.after lines, w) := by
  unfold runEmulated
  rw [StateT.run_bind, opened]
  dsimp only [bind]
  rw [served]
  dsimp only
  split
  -- a fault would have ended the launch before it saved
  · exact absurd ‹_› (sound _)
  · change ((Host.writeFile path fuses'.image : StateM W _) >>= _).run l.world = _
    rw [StateT.run_bind, saved]
    rfl

theorem shown_sound {answer : Except Command.Failure (List String)} {o : Outcome}
    (h : (o.texts, o.result) = shown answer) (fault : Fault) : o.result ≠ .error (.fault fault) := by
  intro faulted
  cases answer with
  | ok texts => cases faulted.symm.trans (Prod.mk.inj h).2
  | error f => cases faulted.symm.trans (Prod.mk.inj h).2

/-- The launch does no more to the system than one writing of the image file. -/
def Saves (l : Launch W) (rows : Rows) : Prop :=
  ∃ path, l.invocation.emulate = some path ∧
    (Host.writeFile path rows.bytes : StateM W _).run l.world = (.ok (), l.result.2)

theorem launch_served {config : Config} (configured : l.config = .ok config)
    (emulates : l.Emulates file)
    (size : ∀ image ∈ l.found file, image.length = FuseMacro.imageBytes) :
    let rows := Rows.ofImage (l.found file)
    let rows' := l.invocation.command.rowsAfter config.programmingEnabled rows
    (l.outcome.texts, l.outcome.result) =
      shown (l.invocation.command.answer config.programmingEnabled rows) ∧
    l.Saves rows' ∧ l.left file = some rows'.bytes := by
  intro rows rows'
  obtain ⟨path, asked, holds⟩ := emulates.image
  obtain ⟨lines, logs, opened⟩ := openMacro_run holds size
  have room : ClockRoom FuseMacro.hardware 1 { attached := true } :=
    .inr ⟨rfl, rfl, by decide, by decide⟩
  have fresh : (FuseMacro.ofRows rows).attachClock.Intact rows :=
    (FuseMacro.intact_ofRows rows).with_clock _
  have answers := serve_intact fresh room config l.invocation.command
  cases served : serve FuseMacro.hardware config l.invocation.command (FuseMacro.ofRows rows).attachClock with
  | mk o fuses =>
    rw [served] at answers
    obtain ⟨answered, intact, -⟩ := answers
    have image : fuses.image = rows'.bytes := congrArg Rows.bytes intact.rows
    obtain ⟨w, saved, held⟩ := holds.writeFile rows'.bytes
    have result : l.result = (o.after lines, w) := by
      rw [result_eq emulates, configured, asked]
      exact runEmulated_run opened served (shown_sound answered) (by rw [image]; exact saved)
    unfold Saves outcome left
    rw [result]
    refine ⟨?_, ⟨path, asked, saved⟩, held⟩
    rw [← answered, texts_after lines logs]
    rfl

end Launch

/-- The image with the bits of every write that a launch makes. A missing image stays missing until a
launch gets past its configuration. -/
def withWrites (image : Option (List Byte)) (launches : List (Launch W)) : Option (List Byte) :=
  if image.isSome ∨ launches.any (·.config.isOk) then
    some ((launches.filterMap Launch.burns?).foldl Rows.join (Rows.ofImage image)).bytes
  else none

section

variable {image : Option (List Byte)} {l : Launch W} {launches : List (Launch W)}

theorem Launch.burns?_of_error {e : Config.LoadError} (stopped : l.config = .error e) : l.burns? = none := by
  unfold burns?
  rw [stopped]

theorem Launch.burns?_of_ok {config : Config} (configured : l.config = .ok config) :
    l.burns? = l.invocation.command.burns? config.programmingEnabled := by
  unfold burns?
  rw [configured]

theorem isSome_withWrites : (withWrites image launches).isSome ↔
    image.isSome ∨ launches.any (·.config.isOk) := by
  unfold withWrites
  split <;> simp_all

theorem size_withWrites : ∀ bytes ∈ withWrites image launches, bytes.length = FuseMacro.imageBytes := by
  intro bytes written
  unfold withWrites at written
  split at written
  · rw [← Option.some.inj written]
    exact Rows.length_bytes _
  · cases written

theorem ofImage_withWrites : Rows.ofImage (withWrites image launches) =
    (launches.filterMap Launch.burns?).foldl Rows.join (Rows.ofImage image) := by
  unfold withWrites
  split
  · exact Rows.ofImage_bytes _
  · rename_i idle
    -- without a configuration there is no write either, so the rows are still those of a blank macro
    obtain ⟨missing, stopped⟩ := not_or.1 idle
    have none : launches.filterMap Launch.burns? = [] := by
      refine List.filterMap_eq_nil_iff.2 fun l launched => ?_
      cases configured : l.config with
      | error e => exact l.burns?_of_error configured
      | ok config =>
        refine absurd (List.any_eq_true.2 ⟨l, launched, ?_⟩) stopped
        rw [configured]
        rfl
    rw [none, Option.not_isSome_iff_eq_none.1 missing]
    rfl

theorem withWrites_cons :
    withWrites image (l :: launches) = withWrites (withWrites image [l]) launches := by
  have rows : ((l :: launches).filterMap Launch.burns?).foldl Rows.join (Rows.ofImage image) =
      (launches.filterMap Launch.burns?).foldl Rows.join (Rows.ofImage (withWrites image [l])) := by
    rw [ofImage_withWrites, ← List.foldl_append, ← List.filterMap_append]
    rfl
  have present : (image.isSome ∨ (l :: launches).any (·.config.isOk)) ↔
      ((withWrites image [l]).isSome ∨ launches.any (·.config.isOk)) := by
    rw [isSome_withWrites]
    simp [or_assoc]
  rw [withWrites, rows]
  simp only [present]
  rfl

theorem withWrites_nil (size : ∀ bytes ∈ image, bytes.length = FuseMacro.imageBytes) :
    withWrites image ([] : List (Launch W)) = image := by
  cases image with
  | none => rfl
  | some bytes => exact congrArg some (Rows.bytes_ofImage (size bytes rfl))

end

def Successive (file : W → Option (List Byte)) : Option (List Byte) → List (Launch W) → Prop
  | _, [] => True
  | image, l :: launches => l.found file = image ∧ Successive file (l.left file) launches

def lastImage (file : W → Option (List Byte)) : Option (List Byte) → List (Launch W) → Option (List Byte)
  | image, [] => image
  | _, l :: launches => lastImage file (l.left file) launches

/-- What becomes of one launch on the file. -/
structure Launch.Orderly (file : W → Option (List Byte)) (l : Launch W) : Prop where
  written : ∀ a, l.burns? = some a → l.outcome.exitStatus = 0 ∧
    l.outcome.texts = [Command.verifiedLine a.addr a.value]
  failed : l.outcome.result ≠ .ok () → l.left file = l.found file ∨
    l.found file = none ∧ l.left file = some (Rows.ofImage none).bytes
  status : l.outcome.exitStatus = match l.outcome.result with
    | .ok () => 0
    | .error (.command (.device e)) => e.errno
    | .error _ => 1
  system : l.result.2 = l.world ∨ ∃ rows, l.Saves rows

theorem Command.answer_of_burns {enabled : Bool} {rows : Rows} {command : Command} {a : AddressedWord}
    (burns : command.burns? enabled = some a) :
    command.answer enabled rows = .ok [verifiedLine a.addr a.value] := by
  cases command with
  | read addr => cases burns
  | dump => cases burns
  | readRow row margin => cases burns
  | write addr value =>
    unfold burns? at burns
    dsimp only at burns
    split at burns
    · rename_i permitted
      cases burns
      unfold answer
      dsimp only
      rw [if_neg (by simp [permitted.1]), if_pos permitted.2]
    · cases burns

namespace Launch

variable {l : Launch W} {file : W → Option (List Byte)}

theorem result_of_error (emulates : l.Emulates file) {e : Config.LoadError}
    (stopped : l.config = .error e) : l.result = (.failed (.config e), l.world) := by
  rw [result_eq emulates, stopped]

theorem left_eq (emulates : l.Emulates file)
    (size : ∀ image ∈ l.found file, image.length = FuseMacro.imageBytes) :
    l.left file = withWrites (l.found file) [l] := by
  cases configured : l.config with
  | error e =>
    calc l.left file
      _ = l.found file := by
        unfold left
        rw [result_of_error emulates configured]
        rfl
      _ = withWrites (l.found file) ([] : List (Launch W)) := (withWrites_nil size).symm
      _ = withWrites (l.found file) [l] := by
        unfold withWrites
        simp [configured, burns?_of_error configured, Except.isOk, Except.toBool]
  | ok config =>
    obtain ⟨-, -, written⟩ := launch_served configured emulates size
    rw [written]
    unfold withWrites Command.rowsAfter
    rw [← burns?_of_ok configured]
    cases burns : l.burns? <;> simp [configured, burns, Except.isOk, Except.toBool]

theorem size_left (emulates : l.Emulates file)
    (size : ∀ image ∈ l.found file, image.length = FuseMacro.imageBytes) :
    ∀ image ∈ l.left file, image.length = FuseMacro.imageBytes := by
  rw [left_eq emulates size]
  exact size_withWrites

theorem orderly (emulates : l.Emulates file)
    (size : ∀ image ∈ l.found file, image.length = FuseMacro.imageBytes) : l.Orderly file := by
  cases configured : l.config with
  | error e =>
    have result := result_of_error emulates configured
    have ended : l.outcome = .failed (.config e) := congrArg (·.1) result
    refine ⟨fun a burns => ?_, fun _ => .inl ?_, ?_, .inl ?_⟩
    · rw [burns?_of_error configured] at burns
      cases burns
    · unfold left
      rw [result]
      rfl
    · rw [ended]
      rfl
    · rw [result]
  | ok config =>
    obtain ⟨answered, saved, image⟩ := launch_served configured emulates size
    obtain ⟨texts, result⟩ := Prod.mk.inj answered
    refine ⟨fun a burns => ?_, fun failed => ?_, ?_, .inr ⟨_, saved⟩⟩
    · rw [burns?_of_ok configured] at burns
      rw [Command.answer_of_burns burns] at texts result
      exact ⟨by unfold Outcome.exitStatus; rw [result], texts⟩
    · have idle : l.invocation.command.burns? config.programmingEnabled = none := by
        cases burns : l.invocation.command.burns? config.programmingEnabled with
        | none => rfl
        | some a =>
          rw [Command.answer_of_burns burns] at result
          exact absurd result failed
      rw [Command.rowsAfter, idle] at image
      change l.left file = some (Rows.ofImage (l.found file)).bytes at image
      rw [image]
      cases found : l.found file with
      | none => exact .inr ⟨rfl, rfl⟩
      | some image => exact .inl (congrArg some (Rows.bytes_ofImage (size image found)))
    · unfold Outcome.exitStatus
      rw [result]
      cases l.invocation.command.answer config.programmingEnabled (Rows.ofImage (l.found file)) with
      | ok texts => rfl
      | error f => cases f with
        | device e => rfl
        | rowOutOfRange row => rfl

end Launch

theorem Launch.Orderly.others {l : Launch Workbench} {name path : String}
    (orderly : l.Orderly (Workbench.file name)) (asked : l.invocation.emulate = some path)
    (reaches : l.world.directory.Reaches path name) :
    (∀ other ≠ name, l.left (Workbench.file other) = l.found (Workbench.file other)) ∧
      l.result.2.memory = l.world.memory := by
  unfold left found
  obtain same | ⟨rows, path', asked', saved⟩ := orderly.system
  · rw [same]
    exact ⟨fun _ _ => rfl, rfl⟩
  · obtain rfl : path = path' := Option.some.inj (asked.symm.trans asked')
    have written := Workbench.writeFile_others reaches rows.bytes
    rwa [saved] at written

def Outcome.seen (o : Outcome) : List String × Nat × String := (o.texts, o.exitStatus, o.errorText)

def Launch.onMacro (hw : Hardware FuseMacro) (m : FuseMacro) (l : Launch W) : Outcome × FuseMacro :=
  match l.config with
  | .error e => (.failed (.config e), m)
  | .ok config => serve hw config l.invocation.command m

def onKept (hw : Hardware FuseMacro) : FuseMacro → List (Launch W) → List (Outcome × FuseMacro)
  | _, [] => []
  | m, l :: launches => l.onMacro hw m :: onKept hw (l.onMacro hw m).2 launches

section

variable {l : Launch W} {file : W → Option (List Byte)} {hw : Hardware FuseMacro} {kept : FuseMacro}
  {room : Nat}

theorem Outcome.seen_congr {o o' : Outcome} (same : (o.texts, o.result) = (o'.texts, o'.result)) :
    o.seen = o'.seen := by
  obtain ⟨texts, result⟩ := Prod.mk.inj same
  unfold seen exitStatus errorText
  rw [texts, result]

theorem Launch.onMacro_seen (emulates : l.Emulates file)
    (size : ∀ image ∈ l.found file, image.length = FuseMacro.imageBytes)
    (intact : kept.Intact (Rows.ofImage (l.found file))) (clock : ClockRoom hw (room + 1) kept.clock) :
    let r := l.onMacro hw kept
    r.1.seen = l.outcome.seen ∧ r.2.Intact (Rows.ofImage (l.left file)) ∧ ClockRoom hw room r.2.clock := by
  intro r
  have served : r = l.onMacro hw kept := rfl
  unfold onMacro at served
  cases configured : l.config with
  | error e =>
    have result := result_of_error emulates configured
    rw [configured] at served
    rw [served]
    unfold outcome left
    rw [result]
    exact ⟨rfl, intact, clock.less (Nat.le_succ _)⟩
  | ok config =>
    obtain ⟨answered, -, image⟩ := launch_served configured emulates size
    obtain ⟨same, intact', clock'⟩ := serve_intact intact clock config l.invocation.command
    rw [configured] at served
    rw [served]
    refine ⟨Outcome.seen_congr (same.trans answered.symm), ?_, clock'⟩
    rw [image, Rows.ofImage_bytes]
    exact intact'

end

section

variable {file : W → Option (List Byte)} {image : Option (List Byte)} {launches : List (Launch W)}

theorem lastImage_eq (size : ∀ bytes ∈ image, bytes.length = FuseMacro.imageBytes)
    (emulate : ∀ l ∈ launches, l.Emulates file) (successive : Successive file image launches) :
    lastImage file image launches = withWrites image launches := by
  induction launches generalizing image with
  | nil => exact (withWrites_nil size).symm
  | cons l launches ih =>
    obtain ⟨rfl, successive⟩ := successive
    obtain ⟨emulates, emulate⟩ := List.forall_mem_cons.1 emulate
    rw [withWrites_cons, ← l.left_eq emulates size]
    exact ih (l.size_left emulates size) emulate successive

theorem all_orderly (size : ∀ bytes ∈ image, bytes.length = FuseMacro.imageBytes)
    (emulate : ∀ l ∈ launches, l.Emulates file) (successive : Successive file image launches) :
    ∀ l ∈ launches, l.Orderly file := by
  induction launches generalizing image with
  | nil => exact List.forall_mem_nil _
  | cons l launches ih =>
    obtain ⟨rfl, successive⟩ := successive
    obtain ⟨emulates, emulate⟩ := List.forall_mem_cons.1 emulate
    exact List.forall_mem_cons.2 ⟨l.orderly emulates size,
      ih (l.size_left emulates size) emulate successive⟩

theorem kept_seen {hw : Hardware FuseMacro} {kept : FuseMacro} {room : Nat}
    (size : ∀ bytes ∈ image, bytes.length = FuseMacro.imageBytes)
    (emulate : ∀ l ∈ launches, l.Emulates file) (successive : Successive file image launches)
    (intact : kept.Intact (Rows.ofImage image)) (clock : ClockRoom hw room kept.clock) :
    ∀ x ∈ (launches.zip (onKept hw kept launches)).take room,
      x.2.1.seen = x.1.outcome.seen ∧ x.2.2.rows = Rows.ofImage (x.1.left file) := by
  -- The launches and the kept macro go on side by side; what carries it is that the kept macro
  -- holds the rows of the file.
  induction launches generalizing image kept room with
  | nil => simp
  | cons l launches ih =>
    cases room with
    | zero => simp
    | succ room =>
      obtain ⟨rfl, successive⟩ := successive
      obtain ⟨emulates, emulate⟩ := List.forall_mem_cons.1 emulate
      obtain ⟨seen, intact, clock⟩ := l.onMacro_seen emulates size intact clock
      exact List.forall_mem_cons.2 ⟨⟨seen, intact.rows⟩,
        ih (l.size_left emulates size) emulate successive intact clock⟩

/-- Launches on one image file, each with its own configuration and its own other files. The image holds
what it held and the bits of every write that was made, and a launch that fails leaves no trace in it but
the blank image that it may have created. And however long one macro with the rows of the first image is
kept and takes all the commands, the tool shows of each what the launch shows, and the macro then has the
rows of the image. The kept macro runs without a clock of its own, or `room` launches leave its two
clock counts in their 32 bits. -/
theorem launches_serve_one_macro
    (size : ∀ bytes ∈ image, bytes.length = FuseMacro.imageBytes)
    (emulate : ∀ l ∈ launches, l.Emulates file) (successive : Successive file image launches) :
    lastImage file image launches = withWrites image launches ∧
    (∀ l ∈ launches, l.Orderly file) ∧
    ∀ (hw : Hardware FuseMacro) (kept : FuseMacro) (room : Nat),
      kept.Intact (Rows.ofImage image) → ClockRoom hw room kept.clock →
      ∀ x ∈ (launches.zip (onKept hw kept launches)).take room,
        x.2.1.seen = x.1.outcome.seen ∧ x.2.2.rows = Rows.ofImage (x.1.left file) :=
  ⟨lastImage_eq size emulate successive, all_orderly size emulate successive,
    fun _ _ _ intact clock => kept_seen size emulate successive intact clock⟩

end

theorem launches_serve_one_macro_created :
    let image := Workbench.file "f"
    let write : Launch Workbench :=
      ⟨{ command := .write 0xc 0x5, emulate := some "f", enableProgramming := true }, {}⟩
    let refused : Launch Workbench := ⟨{ command := .readRow 200 false, emulate := some "f" }, write.result.2⟩
    let read : Launch Workbench := ⟨{ command := .read 0xc, emulate := some "f" }, refused.result.2⟩
    let launches := [write, refused, read]
    lastImage image none launches = some ((Rows.ofImage none).join ⟨0xc, 0x5⟩).bytes ∧
    (∀ l ∈ launches, l.Orderly image) ∧
    ∀ x ∈ (launches.zip (onKept FuseMacro.hardware FuseMacro.blank.attachClock launches)).take 3,
      x.2.1.seen = x.1.outcome.seen ∧ x.2.2.rows = Rows.ofImage (x.1.left image) := by
  -- A blank image is created and written, a row out of range leaves it alone, and the word is read
  -- back.
  intro image write refused read launches
  have reaches (d : WorkDirectory) : d.Reaches "f" "f" :=
    d.reaches_name (by decide) (by simp) (by decide)
  have emulates (l : Launch Workbench) (asked : l.invocation.emulate = some "f") : l.Emulates image :=
    ⟨⟨"f", asked, Workbench.holds_entry (reaches _)⟩, fun _ _ => rfl⟩
  have emulate : ∀ l ∈ launches, l.Emulates image := by
    simp [launches, write, refused, read, emulates]
  have successive : Successive image none launches := ⟨rfl, rfl, rfl, trivial⟩
  obtain ⟨last, orderly, kept⟩ := launches_serve_one_macro (by simp) emulate successive
  refine ⟨last.trans ?_, orderly, kept FuseMacro.hardware _ 3
    ((FuseMacro.intact_ofRows _).with_clock _) (.inr ⟨rfl, rfl, by decide, by decide⟩)⟩
  have burns : launches.filterMap Launch.burns? = [⟨0xc, 0x5⟩] := by decide +kernel
  have started : launches.any (·.config.isOk) = true := by decide +kernel
  rw [withWrites, burns, if_pos (.inr started)]
  rfl

end Cli

end FuseBank
