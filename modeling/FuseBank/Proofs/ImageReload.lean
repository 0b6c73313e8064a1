import Mathlib.Data.String.Basic
import FuseBank.Emulation.Image
import FuseBank.Host.WorkDirectory
import FuseBank.Proofs.ShadowBytes

/-!
A macro that is saved to an image file and loaded from it again has the rows it had, and is as after
reset otherwise; the image and the rows tell the same (`images_round_trip`). In a directory this asks
nothing of the files: a path that a file can be written to leads to that file afterwards too, or to the
null device, and from there nothing is loaded.
-/

namespace FuseBank

namespace Word

theorem flatMap_toBytes_listOfBytes {bytes : List Byte} (whole : bytes.length % 4 = 0) :
    (listOfBytes bytes).flatMap toBytes = bytes := by
  fun_induction listOfBytes bytes with
  | case1 b0 b1 b2 b3 rest ih =>
    have shorter : rest.length % 4 = 0 := by
      simp only [List.length_cons] at whole
      omega
    rw [List.flatMap_cons, toBytes_ofBytes, ih shorter]
    rfl
  | case2 bytes short =>
    -- one, two or three bytes would be no whole number of words
    match bytes, short with
    | [], _ => rfl
    | [_], _ | [_, _], _ | [_, _, _], _ => simp at whole
    | b0 :: b1 :: b2 :: b3 :: rest, short => exact absurd rfl (short b0 b1 b2 b3 rest)

end Word

namespace Rows

def bytes (rows : Rows) : List Byte := rows.toList.flatMap Word.toBytes

def ofImage : Option (List Byte) → Rows
  | none => Vector.replicate 128 0
  | some image => Vector.ofFn fun i => (Word.listOfBytes image).getD i.val 0

theorem getElem_ofImage (image : List Byte) {i : Nat} (bound : i < 128) :
    (ofImage (some image))[i] = (Word.listOfBytes image).getD i 0 :=
  Vector.getElem_ofFn bound

theorem length_bytes (rows : Rows) : rows.bytes.length = FuseMacro.imageBytes := by
  rw [bytes, Word.length_flatMap_toBytes, Vector.length_toList]
  rfl

theorem ofImage_bytes (rows : Rows) : ofImage (some rows.bytes) = rows := by
  apply Vector.ext
  intro i bound
  rw [getElem_ofImage, bytes, Word.listOfBytes_flatMap_toBytes]
  simp [bound]

theorem bytes_ofImage {image : List Byte} (size : image.length = FuseMacro.imageBytes) :
    (ofImage (some image)).bytes = image := by
  have whole : (Word.listOfBytes image).flatMap Word.toBytes = image := by
    refine Word.flatMap_toBytes_listOfBytes ?_
    rw [size, FuseMacro.imageBytes]
  have count : (Word.listOfBytes image).length = 128 := by
    have length := congrArg List.length whole
    rw [Word.length_flatMap_toBytes, size, FuseMacro.imageBytes] at length
    omega
  have words : (ofImage (some image)).toList = Word.listOfBytes image := by
    apply List.ext_getElem
    · rw [Vector.length_toList, count]
    · intro i _ bound
      rw [Vector.getElem_toList, getElem_ofImage]
      simp [bound]
  rw [bytes, words]
  exact whole

end Rows

theorem FuseMacro.ofImage_eq (path : String) {image : List Byte} (size : image.length = imageBytes) :
    ofImage path image = .ok (ofRows (Rows.ofImage (some image))) := by
  unfold ofImage
  rw [if_neg (by simp [size])]
  rfl

namespace WorkDirectory

variable {d d' : WorkDirectory} {path name : String} {content : List Byte}

/-- A path to an entry of the directory, which can hold a file. -/
structure Reaches (d : WorkDirectory) (path name : String) : Prop where
  plain : path.contains '\x00' = false
  entry : d.place path = .entry name false
  short : name.utf8ByteSize ≤ nameLimit

theorem reaches_name (d : WorkDirectory) (named : name ≠ "" ∧ name ≠ "." ∧ name ≠ "..")
    (plain : ∀ c ∈ name.toList, c ≠ '\x00' ∧ c ≠ '/') (short : name.utf8ByteSize ≤ nameLimit) :
    d.Reaches name name := by
  obtain ⟨some_name, here, up⟩ := named
  have whole : name.splitToList (· = '/') = [name] := by
    rw [String.splitToList_of_valid, List.splitOnP_eq_singleton fun c hc => by simp [(plain c hc).2]]
    simp
  have below : ¬ name.utf8ByteSize > pathLimit := by
    unfold nameLimit at short
    unfold pathLimit
    omega
  refine ⟨?_, ?_, short⟩
  · simp
    exact fun null => (plain _ null).1 rfl
  · unfold place
    rw [if_neg (by simpa using some_name), if_neg below, whole]
    split
    · rename_i rooted
      exact absurd (List.cons.inj rooted).1 some_name
    · rw [follow.eq_5 _ _ _ some_name here up]
      rfl

theorem Reaches.readFile (h : d.Reaches path name) {content : List Byte}
    (found : d.find? name = some content) : d.readFile path = .ok content := by
  have looked : d.lookUp name = .ok content := by
    unfold lookUp
    rw [if_neg (Nat.not_lt.2 h.short), found]
  simp only [WorkDirectory.readFile, h.plain, h.entry, looked]
  rfl

theorem Reaches.writeFile (h : d.Reaches path name) (content : List Byte) :
    d.writeFile path content = .ok (d.put name content) := by
  simp only [WorkDirectory.writeFile, h.plain, h.entry]
  exact if_neg (Nat.not_lt.2 h.short)

theorem follow_entry (d' : WorkDirectory) {parts : List String} {slash : Bool}
    (h : d.follow parts = .entry name slash) : d'.follow parts = .entry name slash := by
  -- files are only looked at where parts follow a name, and there the path ends in no entry
  fun_induction d.follow parts with
  | case1 => cases h
  | case2 rest ih => exact ih h
  | case3 rest ih => exact ih h
  | case4 rest => exact h
  | case5 first rest named notDot notDots last =>
    rw [follow.eq_5 _ _ _ named notDot notDots, if_pos last]
    exact h
  | case6 first rest named notDot notDots more last =>
    rw [follow.eq_5 _ _ _ named notDot notDots, if_neg more, if_pos last]
    exact h
  | case7 => cases h
  | case8 => cases h

theorem place_entry (d' : WorkDirectory) {slash : Bool} (h : d.place path = .entry name slash) :
    d'.place path = .entry name slash := by
  unfold place at h ⊢
  split at h
  · cases h
  split at h
  · cases h
  rename_i some_name short
  rw [if_neg some_name, if_neg short]
  split at h
  · exact h
  · exact follow_entry d' h

theorem writeFile_cases (h : d.writeFile path content = .ok d') :
    path.contains '\x00' = false ∧
    ((d.place path = .nullDevice false ∧ d' = d) ∨
      ∃ name, d.place path = .entry name false ∧ name.utf8ByteSize ≤ nameLimit ∧
        d' = d.put name content) := by
  unfold writeFile at h
  split at h
  · cases h
  rename_i plain
  refine ⟨Bool.eq_false_iff.2 plain, ?_⟩
  split at h
  · cases h
  · cases h
  · cases h
  · cases h
  · cases h
  · cases h
    exact .inl ⟨‹_›, rfl⟩
  · split at h
    · cases h
    · cases h
      exact .inr ⟨_, ‹_›, by omega, rfl⟩

theorem readFile_writeFile (h : d.writeFile path content = .ok d') :
    d'.readFile path = .ok (if d.place path = .nullDevice false then [] else content) := by
  obtain ⟨plain, ⟨null, rfl⟩ | ⟨name, entry, short, rfl⟩⟩ := writeFile_cases h
  · simp only [readFile, plain, null]
    rfl
  · have found : (d.put name content).lookUp name = .ok content := by
      unfold lookUp
      rw [if_neg (by omega), find?_put]
    simp only [readFile, plain, place_entry (d.put name content) entry, entry, found]
    rfl

end WorkDirectory

theorem Workbench.writeFile_run (world : Workbench) (path : String) (content : List Byte) :
    (Host.writeFile path content : StateM Workbench _).run world =
      match world.directory.writeFile path content with
      | .error e => (.error e, world)
      | .ok directory => (.ok (), { world with directory }) := by
  simp only [Host.writeFile, StateT.run_bind, StateT.run_get, pure_bind]
  cases world.directory.writeFile path content with
  | error e => rfl
  | ok directory => rfl

namespace FuseMacro

theorem ofImage_image (path : String) (m : FuseMacro) : ofImage path m.image = .ok (ofRows m.rows) := by
  have size : m.image.length = imageBytes := m.rows.length_bytes
  rw [ofImage_eq path size]
  exact congrArg (fun rows => Except.ok (ofRows rows)) m.rows.ofImage_bytes

theorem ofImage_fresh {path : String} {bytes : List Byte} {m : FuseMacro}
    (h : ofImage path bytes = .ok m) : ∃ rows, m = ofRows rows := by
  unfold ofImage at h
  split at h
  · cases h
  · exact ⟨_, (Except.ok.inj h).symm⟩

section

variable {m : Type → Type} [Monad m] [Host m]

def reload (fuses : FuseMacro) (path : String) : m (Except SystemError FuseMacro) := do
  match ← fuses.save path with
  | .error e => return .error e
  | .ok _ => load path

end

variable (fuses : FuseMacro) (path : String) (world : Workbench)

theorem save_run : (fuses.save path : StateM Workbench _).run world =
    match world.directory.writeFile path fuses.image with
    | .error e => (.error e, world)
    | .ok directory => (.ok (), { world with directory }) :=
  world.writeFile_run path fuses.image

theorem load_run : (load path : StateM Workbench _).run world =
    ((world.directory.readFile path).bind (ofImage path), world) := by
  simp only [load, Host.readFile, bind_assoc, StateT.run_bind, StateT.run_get, pure_bind]
  cases world.directory.readFile path with
  | error e => rfl
  | ok bytes => rfl

theorem load_fresh {loaded : FuseMacro}
    (h : ((load path : StateM Workbench _).run world).1 = .ok loaded) : ∃ rows, loaded = ofRows rows := by
  rw [load_run] at h
  cases shown : world.directory.readFile path with
  | error e =>
    rw [shown] at h
    cases h
  | ok bytes =>
    rw [shown] at h
    exact ofImage_fresh h

theorem reload_run : ((fuses.reload path : StateM Workbench _).run world).1 =
    (world.directory.writeFile path fuses.image).bind fun _ =>
      ofImage path (if world.directory.place path = .nullDevice false then [] else fuses.image) := by
  rw [reload, StateT.run_bind, save_run]
  cases written : world.directory.writeFile path fuses.image with
  | error e => rfl
  | ok directory =>
    change ((load path : StateM Workbench _).run { world with directory }).1 = _
    rw [load_run, WorkDirectory.readFile_writeFile written]
    rfl

theorem reload_rows {loaded : FuseMacro}
    (h : ((fuses.reload path : StateM Workbench _).run world).1 = .ok loaded) :
    loaded = ofRows fuses.rows := by
  rw [reload_run] at h
  cases written : world.directory.writeFile path fuses.image with
  | error e =>
    rw [written] at h
    cases h
  | ok directory =>
    rw [written] at h
    change ofImage path _ = .ok loaded at h
    split at h
    · cases h
    · rw [ofImage_image] at h
      cases h
      rfl

theorem reload_entry {name : String} (reaches : world.directory.Reaches path name) :
    ((fuses.reload path : StateM Workbench _).run world).1 = .ok (ofRows fuses.rows) := by
  rw [reload_run, reaches.writeFile, reaches.entry]
  exact ofImage_image path fuses

end FuseMacro

variable {m : Type → Type} [Monad m] [Host m]

/-- Once something has been written to the path, just that is read from it. -/
def Host.Keeps (m : Type → Type) [Monad m] [Host m] (path : String) : Prop :=
  ∀ content : List Byte,
    (do
      match ← Host.writeFile path content with
      | .error e => return .error e
      | .ok _ => Host.readFile path) =
    (do return (← Host.writeFile path content).map fun _ => content :
      m (Except SystemError (List Byte)))

namespace FuseMacro

def restore (path : String) (image : List Byte) : m (Except SystemError FuseMacro) := do
  match ← Host.writeFile path image with
  | .error e => return .error e
  | .ok _ => load path

theorem load_eq [LawfulMonad m] (path : String) :
    (load path : m _) = do return (← Host.readFile path).bind (ofImage path) := by
  unfold load
  refine bind_congr fun content => ?_
  cases content with
  | error e => rfl
  | ok bytes => rfl

theorem restore_eq [LawfulMonad m] {path : String} (keeps : Host.Keeps m path) (image : List Byte) :
    (restore path image : m _) =
      do return (← Host.writeFile path image).bind fun _ => ofImage path image := by
  -- the reading has to stand next to the writing, before anything is made of what is read
  calc (restore path image : m _)
    _ = (do
          match ← Host.writeFile path image with
          | .error e => return .error e
          | .ok _ => Host.readFile path) >>= fun content => pure (content.bind (ofImage path)) := by
      unfold restore
      rw [bind_assoc]
      refine bind_congr fun written => ?_
      cases written with
      | error e =>
        simp only [pure_bind]
        rfl
      | ok _ => exact load_eq (m := m) path
    _ = _ := by
      rw [keeps image, bind_assoc]
      refine bind_congr fun written => ?_
      rw [pure_bind]
      cases written with
      | error e => rfl
      | ok _ => rfl

theorem rows_ofRows (rows : Rows) : (ofRows rows).rows = rows := rfl

theorem image_eq_iff {fuses fuses' : FuseMacro} : fuses.image = fuses'.image ↔ fuses.rows = fuses'.rows := by
  constructor
  · intro same
    rw [← fuses.rows.ofImage_bytes, ← fuses'.rows.ofImage_bytes]
    exact congrArg (fun image => Rows.ofImage (some image)) same
  · intro same
    exact congrArg Rows.bytes same

theorem ofImage_of_length_ne {path : String} {image : List Byte} (size : image.length ≠ 512) :
    ofImage path image =
      .error (.invalidData s!"{path}: expected 512 bytes, found {image.length}") := by
  have text : ": expected " ++ (toString imageBytes ++ " bytes, found ") = ": expected 512 bytes, found " := by
    decide
  refine (if_pos size).trans (congrArg (Except.error ∘ SystemError.invalidData) ?_)
  change path ++ ": expected " ++ toString imageBytes ++ " bytes, found " ++ toString image.length =
    path ++ ": expected 512 bytes, found " ++ toString image.length
  rw [← text]
  simp only [String.append_assoc]

end FuseMacro

open FuseMacro in
/-- On a path that keeps what is written to it, a macro is saved and loaded with its rows and is fresh
otherwise, a file of 512 bytes is loaded and saved again unchanged, and one of any other size is refused by
its name. The image tells all about the rows and nothing else. -/
theorem images_round_trip [LawfulMonad m] {path : String} (keeps : Host.Keeps m path) :
    (∀ fuses : FuseMacro, ∃ loaded : FuseMacro,
      (fuses.reload path : m _) = (do return (← fuses.save path).map fun _ => loaded) ∧
      loaded.rows = fuses.rows ∧
      (∀ i (h : i < 64), loaded.shadow[i] = fuses.rows[2 * i] ||| fuses.rows[2 * i + 1]) ∧
      loaded.powered = true ∧ loaded.stuck = Vector.replicate 128 0 ∧
      loaded.weak = Vector.replicate 128 0 ∧ loaded.pulses = []) ∧
    (∀ image : List Byte, image.length = 512 → ∃ loaded : FuseMacro,
      (restore path image : m _) = (do return (← Host.writeFile path image).map fun _ => loaded) ∧
      ∀ path', (loaded.save path' : m _) = Host.writeFile path' image) ∧
    (∀ image : List Byte, image.length ≠ 512 →
      (restore path image : m (Except SystemError FuseMacro)) = do
        return (← Host.writeFile path image).bind fun _ =>
          .error (.invalidData s!"{path}: expected 512 bytes, found {image.length}")) ∧
    ∀ fuses fuses' : FuseMacro,
      (fuses.image = fuses'.image ↔ fuses.rows = fuses'.rows) ∧
      (fuses.rows = fuses'.rows → ∀ path', (fuses.save path' : m _) = fuses'.save path') := by
  refine ⟨fun fuses => ?_, fun image size => ?_, fun image size => ?_, fun fuses fuses' => ?_⟩
  · have restored := restore_eq keeps fuses.image
    rw [ofImage_image] at restored
    exact ⟨ofRows fuses.rows, restored, rows_ofRows _, fun i h => Vector.getElem_ofFn h, rfl, rfl, rfl, rfl⟩
  · have restored := restore_eq keeps image
    rw [ofImage_eq path size] at restored
    exact ⟨ofRows (Rows.ofImage (some image)), restored,
      fun path' => congrArg (Host.writeFile path') (Rows.bytes_ofImage size)⟩
  · rw [restore_eq keeps, ofImage_of_length_ne size]
  · exact ⟨image_eq_iff, fun same path' => congrArg (Host.writeFile path') (image_eq_iff.2 same)⟩

theorem WorkDirectory.keeps_entry {d : WorkDirectory} {path name : String}
    (entry : d.place path = .entry name false) : Host.Keeps (StateM Workbench) path := by
  intro content
  refine StateT.ext fun world => ?_
  rw [StateT.run_bind, StateT.run_bind, world.writeFile_run]
  cases written : world.directory.writeFile path content with
  | error e => rfl
  | ok directory =>
    have back := readFile_writeFile written
    rw [place_entry world.directory entry, if_neg nofun] at back
    exact congrArg (fun content => (content, { world with directory })) back

def FuseMacro.spent : FuseMacro :=
  { FuseMacro.blank with powered := false, pulses := [0x14], stuck := Vector.replicate 128 1 }

open FuseMacro in
theorem images_round_trip_spent :
    Host.Keeps (StateM Workbench) "f" ∧
    (∃ loaded : FuseMacro, ((spent.reload "f" : StateM Workbench _).run {}).1 = .ok loaded ∧
      loaded.rows = spent.rows ∧ loaded.powered = true ∧ loaded.pulses = []) ∧
    ((restore "f" [1, 2, 3] : StateM Workbench _).run {}).1 =
      .error (.invalidData "f: expected 512 bytes, found 3") := by
  -- It comes back powered and with an empty record; three bytes are not taken for an image.
  have reaches : ({} : WorkDirectory).Reaches "f" "f" :=
    WorkDirectory.reaches_name _ (by decide) (by simp) (by decide)
  have keeps := WorkDirectory.keeps_entry reaches.entry
  obtain ⟨reloads, -, refuses, -⟩ := images_round_trip keeps
  obtain ⟨loaded, reloaded, rows, -, powered, -, -, pulses⟩ := reloads spent
  refine ⟨keeps, ⟨loaded, ?_, rows, powered, pulses⟩, ?_⟩
  · rw [reloaded, StateT.run_bind, save_run, reaches.writeFile]
    rfl
  · rw [refuses _ (by decide), StateT.run_bind, Workbench.writeFile_run, reaches.writeFile]
    exact congrArg (Except.error ∘ SystemError.invalidData) (by decide)

end FuseBank
