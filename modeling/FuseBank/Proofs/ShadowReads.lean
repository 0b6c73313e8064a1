import FuseBank.OpenFile
import FuseBank.Proofs.MacroRuns

/-!
Reading the fuse space on any bus that shows it. `Readable hw words after s` says that in `s` the clock
comes on, that the shadow registers show `words` for as long as it is on, and that it goes off again,
into a state for which `after` holds. Each way of reading then gives a stretch of the bytes of `words`
and leads to such a state. What the bus does at other registers, or with the clock off, is left open.
-/

namespace FuseBank
open Routine Operation

variable {σ α β : Type}

namespace Word

theorem getElem?_flatMap_toBytes (ws : List Word) (k : Nat) :
    (ws.flatMap toBytes)[k]? = ws[k / 4]?.map fun w => w.byteAt (k % 4) := by
  induction ws generalizing k with
  | nil => simp
  | cons w ws ih =>
    rw [List.flatMap_cons]
    match k with
    | 0 | 1 | 2 | 3 => rfl
    | k + 4 =>
      have next : (k + 4) / 4 = k / 4 + 1 := by omega
      have same : (k + 4) % 4 = k % 4 := by omega
      rw [next, same, List.getElem?_cons_succ, ← ih k]
      exact List.getElem?_append_right (Nat.le_add_left 4 k)

theorem flatMap_toBytes_drop (ws : List Word) (i : Nat) :
    (ws.drop i).flatMap toBytes = (ws.flatMap toBytes).drop (4 * i) := by
  apply List.ext_getElem?
  intro k
  have place : (4 * i + k) / 4 = i + k / 4 := by omega
  have same : (4 * i + k) % 4 = k % 4 := by omega
  rw [List.getElem?_drop, getElem?_flatMap_toBytes, getElem?_flatMap_toBytes, List.getElem?_drop,
    place, same]

theorem length_flatMap_toBytes (ws : List Word) : (ws.flatMap toBytes).length = 4 * ws.length := by
  induction ws with
  | nil => rfl
  | cons w ws ih =>
    rw [List.flatMap_cons, List.length_append, ih, toBytes_length, List.length_cons]
    omega

theorem flatMap_toBytes_take (ws : List Word) (i : Nat) :
    (ws.take i).flatMap toBytes = (ws.flatMap toBytes).take (4 * i) := by
  have split : (ws.take i).flatMap toBytes ++ (ws.flatMap toBytes).drop (4 * i) =
      (ws.flatMap toBytes).take (4 * i) ++ (ws.flatMap toBytes).drop (4 * i) := by
    rw [← flatMap_toBytes_drop, ← List.flatMap_append, List.take_append_drop, flatMap_toBytes_drop,
      List.take_append_drop]
  exact List.append_cancel_right split

end Word

def fuseSpace (words : Vector Word 64) : List Byte := words.toList.flatMap Word.toBytes

def fuseRange (words : Vector Word 64) (start count : Nat) : List Byte :=
  ((fuseSpace words).drop start).take count

section Bytes

variable (words : Vector Word 64)

theorem length_fuseSpace : (fuseSpace words).length = fuseBytes := by
  rw [fuseSpace, Word.length_flatMap_toBytes, Vector.length_toList]
  rfl

theorem length_fuseRange {start count : Nat} (h : start + count ≤ fuseBytes) :
    (fuseRange words start count).length = count := by
  rw [fuseRange, List.length_take, List.length_drop, length_fuseSpace]
  omega

theorem fuseRange_all : fuseRange words 0 fuseBytes = fuseSpace words := by
  rw [fuseRange, List.drop_zero, List.take_of_length_le (Nat.le_of_eq (length_fuseSpace words))]

theorem fuseRange_append (start count more : Nat) :
    fuseRange words start count ++ fuseRange words (start + count) more =
      fuseRange words start (count + more) := by
  simp only [fuseRange]
  rw [List.take_add, List.drop_drop]

theorem drop_words (i : Fin 64) :
    words.toList.drop i.val = words.get i :: words.toList.drop (i.val + 1) := by
  have inside : i.val < words.toList.length := by
    rw [Vector.length_toList]
    exact i.isLt
  exact List.drop_eq_getElem_cons inside

theorem getElem?_fuseRange (w : Fin 64) {start count j : Nat} (hj : j < 4)
    (from_start : start ≤ 4 * w.val + j) (inside : 4 * w.val + j < start + count) :
    (fuseRange words start count)[4 * w.val + j - start]? = some ((words.get w).byteAt j) := by
  have place : start + (4 * w.val + j - start) = 4 * w.val + j := by omega
  have word : (4 * w.val + j) / 4 = w.val := by omega
  have byte : (4 * w.val + j) % 4 = j := by omega
  have found : words.toList[w.val]? = some (words.get w) := by
    rw [Vector.getElem?_toList, Vector.getElem?_eq_getElem w.isLt]
    rfl
  rw [fuseRange, List.getElem?_take_of_lt (by omega), List.getElem?_drop, place, fuseSpace,
    Word.getElem?_flatMap_toBytes, word, byte, found]
  rfl

theorem take_words (i count n : Nat) (h : n ≤ 4 * count) :
    (((words.toList.drop i).take count).flatMap Word.toBytes).take n = fuseRange words (4 * i) n := by
  rw [Word.flatMap_toBytes_take, List.take_take, Nat.min_eq_left h, Word.flatMap_toBytes_drop]
  rfl

end Bytes

namespace Routine

/-- The routine returns `a`, in a state for which `after` holds. -/
def Gives (hw : Hardware σ) (p : Routine α) (s : σ) (a : α) (after : σ → Prop) : Prop :=
  ∃ t, Yields hw p s a t ∧ after t

variable {hw : Hardware σ} {s : σ} {after later : σ → Prop} {a : α} {b : β}

theorem gives_done (h : after s) : Gives hw (done a) s a after := ⟨s, yields_done a s, h⟩

theorem Gives.bind {p : Routine α} {f : α → Routine β} (hp : Gives hw p s a after)
    (hf : ∀ t, after t → Gives hw (f a) t b later) : Gives hw (p >>= f) s b later := by
  obtain ⟨t, first, ends⟩ := hp
  obtain ⟨u, second, ends⟩ := hf t ends
  exact ⟨u, first.bind second, ends⟩

theorem Gives.bind_done {p : Routine α} {f : α → Routine β} (hp : Gives hw p s a after)
    (last : f a = done b) : Gives hw (p >>= f) s b after := by
  refine hp.bind fun t ends => ?_
  rw [last]
  exact gives_done ends

end Routine

/-- Wherever `lit` holds the shadow registers show `words`, and after each read it holds again. -/
def ShadowShows (hw : Hardware σ) (words : Vector Word 64) (lit : σ → Prop) : Prop :=
  ∀ s, lit s → ∀ i : Fin 64,
    (hw.bus.read (Offset.shadow + 4 * i.val) s).result = .ok (words.get i) ∧
    lit (hw.bus.read (Offset.shadow + 4 * i.val) s).state

structure Readable (hw : Hardware σ) (words : Vector Word 64) (after : σ → Prop) (s : σ) : Prop where
  on : (hw.gate.enable s).result = .ok (.ok ())
  lit : ∃ lit : σ → Prop, lit (hw.gate.enable s).state ∧ ShadowShows hw words lit ∧
    ∀ t, lit t → (hw.gate.disable t).result = .ok () ∧ after (hw.gate.disable t).state

section Readable

variable {hw : Hardware σ} {words : Vector Word 64} {lit after : σ → Prop} {s : σ}

theorem gives_shadow (shows : ShadowShows hw words lit) (h : lit s) (i : Fin 64) :
    Gives hw (readRegister (Offset.shadow + 4 * i.val)) s (words.get i) lit :=
  ⟨_, yields_read (shows s h i).1 (yields_done _ _), (shows s h i).2⟩

theorem gives_readWords (shows : ShadowShows hw words lit) (h : lit s) (i count : Nat)
    (inside : i + count ≤ 64) :
    Gives hw (Controller.readWords (Offset.shadow + 4 * i) count) s
      ((words.toList.drop i).take count) lit := by
  induction count generalizing i s with
  | zero => exact gives_done h
  | succ count ih =>
    have next : Offset.shadow + 4 * i + 4 = Offset.shadow + 4 * (i + 1) := by omega
    unfold Controller.readWords
    rw [drop_words words ⟨i, by omega⟩, List.take_succ_cons, next]
    refine (gives_shadow shows h ⟨i, by omega⟩).bind fun t ht => ?_
    exact (ih ht (i + 1) (by omega)).bind_done rfl

theorem Readable.withClock (readable : Readable hw words after s) {body : Operation α} {a : α}
    (inner : ∀ lit : σ → Prop, ShadowShows hw words lit → ∀ t, lit t →
      Gives hw body.run t (.ok a) lit) :
    Gives hw (Controller.withClock body).run s (.ok a) after := by
  obtain ⟨lit, bright, shows, off⟩ := readable.lit
  obtain ⟨t, yields, ht⟩ := inner lit shows _ bright
  exact ⟨_, yields_withClock readable.on yields (off t ht).1, (off t ht).2⟩

end Readable

section Reads

variable {hw : Hardware σ} {words : Vector Word 64} {after : σ → Prop} {s : σ}

theorem gives_lift {p : Routine α} {a : α} (h : Gives hw p s a after) :
    Gives hw (liftM p : Operation α).run s (.ok a) after := by
  obtain ⟨t, yields, ends⟩ := h
  exact ⟨t, yields_lift yields, ends⟩

theorem gives_readShadow (readable : Readable hw words after s) {addr : Word} {w : Fin 64}
    (place : addr.toNat = 4 * w.val) :
    Gives hw (Device.readShadow addr).run s (.ok (words.get w)) after := by
  have valid : Controller.ValidAddress addr := by
    have bound := w.isLt
    refine ⟨?_, by omega⟩
    unfold fuseBytes
    omega
  unfold Device.readShadow Controller.readShadow Controller.checkAddress
  rw [if_pos valid, pure_bind, place]
  exact readable.withClock fun lit shows t ht => gives_lift (gives_shadow shows ht w)

theorem gives_readBuffer (readable : Readable hw words after s) {addr : Word} {buffer : List Byte}
    {n : Nat} (count : min buffer.length fuseBytes = n) (some_bytes : 0 < n)
    (aligned : addr.toNat % 4 = 0) (inside : addr.toNat + n ≤ fuseBytes) :
    Gives hw (Device.readBuffer addr buffer) s
      (.ok n, fuseRange words addr.toNat n ++ buffer.drop n) after := by
  have valid : Controller.ValidAddress addr := ⟨by omega, aligned⟩
  have start : 4 * (addr.toNat / 4) = addr.toNat := by omega
  have room : addr.toNat / 4 + (n + 3) / 4 ≤ 64 := by
    unfold fuseBytes at inside
    omega
  unfold Device.readBuffer Controller.readBuffer
  simp only [count]
  -- the last word begins inside the fuse space, so the range check passes
  rw [if_neg (by omega), if_neg (fun invalid => invalid valid), if_neg (by omega)]
  have words_read : Gives hw
      (Controller.withClock (Controller.readWords (Offset.shadow + addr.toNat) ((n + 3) / 4))).run s
      (.ok ((words.toList.drop (addr.toNat / 4)).take ((n + 3) / 4))) after := by
    refine readable.withClock fun lit shows t ht => gives_lift ?_
    have read := gives_readWords shows ht _ _ room
    rwa [start] at read
  refine words_read.bind_done ?_
  have bytes := take_words words (addr.toNat / 4) ((n + 3) / 4) n (by omega)
  rw [start] at bytes
  dsimp only
  rw [bytes]
  rfl

namespace OpenFile

theorem gives_read (readable : Readable hw words after s) {f : OpenFile} {buffer : List Byte} {n : Nat}
    (count : min buffer.length (fuseBytes - f.offset) = n) (some_bytes : 0 < n)
    (aligned : f.offset % 4 = 0) :
    Gives hw (f.read buffer) s
      ⟨.ok n, f.advance n, fuseRange words f.offset n ++ buffer.drop n⟩ after := by
  have start : (BitVec.ofNat 32 f.offset).toNat = f.offset := by
    have small : f.offset < 256 := by
      unfold fuseBytes at count
      omega
    rw [BitVec.toNat_ofNat]
    omega
  have length : (List.replicate n (0 : Byte)).length = n := List.length_replicate
  have page : Gives hw (Device.readBuffer (BitVec.ofNat 32 f.offset) (List.replicate n 0)) s
      (.ok n, fuseRange words f.offset n) after := by
    have fills : min (List.replicate n (0 : Byte)).length fuseBytes = n := by
      rw [length]
      omega
    rw [← start] at aligned
    have read := gives_readBuffer readable fills some_bytes aligned (by omega)
    rwa [start, List.drop_eq_nil_of_le (Nat.le_of_eq length), List.append_nil] at read
  unfold OpenFile.read
  rw [if_neg (by omega)]
  dsimp only
  rw [count]
  refine page.bind_done ?_
  dsimp only
  rw [List.take_of_length_le (Nat.le_of_eq (length_fuseRange words (by omega)))]
  rfl

theorem gives_control (readable : Readable hw words after s) {f : OpenFile} (d : Device)
    {argument rest : List Byte} {payload : AddressedWord} {w : Fin 64}
    (decoded : AddressedWord.decode? argument = some (payload, rest))
    (place : payload.addr.toNat = 4 * w.val) :
    Gives hw (f.control d readRequest argument) s
      ⟨.ok 0, f, payload.addr.toBytes ++ (words.get w).toBytes ++ rest⟩ after := by
  unfold OpenFile.control
  rw [decoded]
  dsimp only
  rw [if_pos rfl]
  exact (gives_readShadow readable place).bind_done rfl

end OpenFile

end Reads

end FuseBank
