import FuseBank.Toml.Document

/-!
The tables that a document can hold. However keys and headers build them up, no table has a key twice,
and every integer has 64 bits with its sign (`Document.parse_sound`).
-/

namespace FuseBank.Toml

/-- No table in the value has a key twice, and every integer in it has 64 bits with its sign. -/
inductive Value.Sound : Value → Prop where
  | text (chars : List Char) : Sound (.text chars)
  | integer {n : Int} (least : Number.minInteger ≤ n) (greatest : n ≤ Number.maxInteger) :
      Sound (.integer n)
  | float (literal : List Char) : Sound (.float literal)
  | boolean (b : Bool) : Sound (.boolean b)
  | moment (literal : List Char) : Sound (.moment literal)
  | array {items : List Value} (each : ∀ v ∈ items, Sound v) : Sound (.array items)
  | table {origin : Origin} {entries : List (String × Value)} (distinct : (entries.map Prod.fst).Nodup)
      (each : ∀ e ∈ entries, Sound e.2) : Sound (.table origin entries)
  | tables {items : List (List (String × Value))} (distinct : ∀ es ∈ items, (es.map Prod.fst).Nodup)
      (each : ∀ es ∈ items, ∀ e ∈ es, Sound e.2) : Sound (.tables items)

namespace Entries

structure Sound (es : Entries) : Prop where
  distinct : (es.map Prod.fst).Nodup
  each : ∀ e ∈ es, e.2.Sound

variable {es es' : Entries} {key : String} {v : Value} {origin : Origin}

theorem sound_nil : Sound [] := ⟨List.nodup_nil, nofun⟩

theorem mem_of_lookup (h : es.lookup key = some v) : (key, v) ∈ es := by
  obtain ⟨before, after, rfl, -⟩ := List.lookup_eq_some_iff.1 h
  simp

theorem lookup_eq_some_iff_mem (distinct : (es.map Prod.fst).Nodup) :
    es.lookup key = some v ↔ (key, v) ∈ es := by
  refine ⟨mem_of_lookup, fun mem => ?_⟩
  obtain ⟨before, after, rfl⟩ := List.append_of_mem mem
  rw [List.map_append, List.nodup_append] at distinct
  refine List.lookup_eq_some_iff.2 ⟨before, after, rfl, fun e earlier => ?_⟩
  have other : e.1 ≠ key := distinct.2.2 e.1 (List.mem_map_of_mem earlier) key (by simp)
  exact bne_iff_ne.2 other.symm

theorem lookup_eq_none_iff_not_mem : es.lookup key = none ↔ ∀ v, (key, v) ∉ es := by
  rw [List.lookup_eq_none_iff]
  constructor
  · intro missed v mem
    simpa using missed _ mem
  · intro missing e mem
    simpa using fun same : key = e.1 => missing e.2 (same ▸ mem)

theorem lookup_perm (distinct : (es.map Prod.fst).Nodup) (h : es'.Perm es) (key : String) :
    es'.lookup key = es.lookup key := by
  have distinct' : (es'.map Prod.fst).Nodup := (h.map Prod.fst).nodup_iff.2 distinct
  ext v
  rw [lookup_eq_some_iff_mem distinct', lookup_eq_some_iff_mem distinct, h.mem_iff]

theorem Sound.lookup (h : es.Sound) (found : es.lookup key = some v) : v.Sound :=
  h.each _ (mem_of_lookup found)

theorem Sound.concat (h : es.Sound) (new : ∀ e ∈ es, e.1 ≠ key) (sound : v.Sound) :
    Sound (es ++ [(key, v)]) where
  distinct := by
    rw [List.map_append, List.nodup_append]
    refine ⟨h.distinct, by simp, ?_⟩
    simpa using fun a x mem => new (a, x) mem
  each := by
    simpa [or_imp, forall_and] using ⟨fun a x mem => h.each (a, x) mem, sound⟩

theorem Sound.concat_of_lookup (h : es.Sound) (none : es.lookup key = none) (sound : v.Sound) :
    Sound (es ++ [(key, v)]) := by
  refine h.concat (fun e mem same => ?_) sound
  have missed := List.lookup_eq_none_iff.1 none e mem
  simp [same] at missed

theorem keys_replace (es : Entries) (key : String) (v : Value) :
    (es.replace key v).map Prod.fst = es.map Prod.fst := by
  rw [replace, List.map_map]
  refine List.map_congr_left fun e _ => ?_
  by_cases same : e.1 = key <;> simp [same]

theorem Sound.replace (h : es.Sound) (sound : v.Sound) : Sound (es.replace key v) where
  distinct := by
    rw [keys_replace]
    exact h.distinct
  each := by
    intro e mem
    obtain ⟨e', mem', rfl⟩ := List.mem_map.1 mem
    split
    · exact sound
    · exact h.each e' mem'

theorem sound_table : (Value.table origin es).Sound ↔ es.Sound := by
  constructor
  · intro h
    cases h with
    | table distinct each => exact ⟨distinct, each⟩
  · exact fun h => .table h.distinct h.each

theorem sound_tables {items : List Entries} : (Value.tables items).Sound ↔ ∀ es ∈ items, es.Sound := by
  constructor
  · intro h es mem
    cases h with
    | tables distinct each => exact ⟨distinct es mem, each es mem⟩
  · exact fun h => .tables (fun es mem => (h es mem).distinct) fun es mem => (h es mem).each

theorem Sound.add (h : es.Sound) (sound : v.Sound) (added : es.add key v = some es') : es'.Sound := by
  unfold Entries.add at added
  split at added
  · cases added
  · rename_i new
    cases added
    refine h.concat (fun e mem same => new ?_) sound
    exact List.any_eq_true.2 ⟨e, mem, decide_eq_true same⟩

theorem Sound.under_missing (h : es.Sound) (missing : es.lookup key = none) {inner : Entries}
    (sound : inner.Sound) : Sound (es ++ [(key, .table origin inner)]) :=
  h.concat_of_lookup missing (sound_table.2 sound)

theorem Sound.under_table (h : es.Sound) {inner : Entries} (sound : inner.Sound) :
    Sound (es.replace key (.table origin inner)) :=
  h.replace (sound_table.2 sound)

theorem Sound.table_at (h : es.Sound) {inner : Entries}
    (found : es.lookup key = some (.table origin inner)) : inner.Sound :=
  sound_table.1 (h.lookup found)

theorem Sound.under_tables (h : es.Sound) {items : List Entries}
    (found : es.lookup key = some (.tables items)) {last : Entries} (sound : last.Sound) :
    Sound (es.replace key (.tables (items.dropLast ++ [last]))) := by
  refine h.replace (sound_tables.2 fun es' mem => ?_)
  rcases List.mem_append.1 mem with earlier | ends
  · exact sound_tables.1 (h.lookup found) es' (List.dropLast_subset items earlier)
  · rw [List.mem_singleton.1 ends]
    exact sound

theorem Sound.last_at (h : es.Sound) {items : List Entries}
    (found : es.lookup key = some (.tables items)) {last : Entries} (ends : items.getLast? = some last) :
    last.Sound :=
  sound_tables.1 (h.lookup found) last (List.mem_of_getLast? ends)

theorem Sound.assign {path : List String} (h : es.Sound) (sound : v.Sound)
    (assigned : es.assign path key v = some es') : es'.Sound := by
  induction path generalizing es es' with
  | nil => exact h.add sound assigned
  | cons part rest ih =>
    unfold Entries.assign at assigned
    split at assigned
    · rename_i missing
      obtain ⟨inner, made, built⟩ := Option.bind_eq_some_iff.1 assigned
      cases built
      exact h.under_missing missing (ih sound_nil made)
    · rename_i origin inner found
      split at assigned
      · obtain ⟨inner', made, built⟩ := Option.bind_eq_some_iff.1 assigned
        cases built
        exact h.under_table (ih (h.table_at found) made)
      · cases assigned
    · rename_i items found
      split at assigned
      · cases assigned
      · obtain ⟨last, ends, assigned⟩ := Option.bind_eq_some_iff.1 assigned
        obtain ⟨last', made, built⟩ := Option.bind_eq_some_iff.1 assigned
        cases built
        exact h.under_tables found (ih (h.last_at found ends) made)
    · cases assigned

theorem Sound.update {path : List String} {change : Entries → Option Entries} (h : es.Sound)
    (changes : ∀ {es es' : Entries}, es.Sound → change es = some es' → es'.Sound)
    (updated : es.update change path = some es') : es'.Sound := by
  induction path generalizing es es' with
  | nil => exact changes h updated
  | cons part rest ih =>
    unfold Entries.update at updated
    split at updated
    · rename_i missing
      obtain ⟨inner, made, built⟩ := Option.bind_eq_some_iff.1 updated
      cases built
      exact h.under_missing missing (ih sound_nil made)
    · rename_i origin inner found
      split at updated
      · cases updated
      · obtain ⟨inner', made, built⟩ := Option.bind_eq_some_iff.1 updated
        cases built
        exact h.under_table (ih (h.table_at found) made)
    · rename_i items found
      obtain ⟨last, ends, updated⟩ := Option.bind_eq_some_iff.1 updated
      obtain ⟨last', made, built⟩ := Option.bind_eq_some_iff.1 updated
      cases built
      exact h.under_tables found (ih (h.last_at found ends) made)
    · cases updated

theorem Sound.openTable {path : List String} (h : es.Sound)
    (opened : es.openTable path key = some es') : es'.Sound := by
  refine h.update (fun {parent} _ sound made => ?_) opened
  split at made
  · cases made
    exact sound.under_missing ‹_› sound_nil
  · cases made
    exact sound.under_table (sound.table_at ‹_›)
  · cases made

theorem Sound.openListed {path : List String} (h : es.Sound)
    (opened : es.openListed path key = some es') : es'.Sound := by
  refine h.update (fun {parent} _ sound made => ?_) opened
  split at made
  · cases made
    refine sound.concat_of_lookup ‹_› (sound_tables.2 ?_)
    simp [sound_nil]
  · rename_i items found
    cases made
    have earlier := sound_tables.1 (sound.lookup found)
    refine sound.replace (sound_tables.2 ?_)
    simpa [or_imp, forall_and, sound_nil] using earlier
  · cases made

end Entries

namespace Scanner

variable {α β : Type} {P : β → Prop} {Q : α → Prop}

/-- Whatever the scanner finds has the property. -/
def Finds (s : Scanner α) (Q : α → Prop) : Prop := ∀ cs a rest, s.run cs = some (a, rest) → Q a

theorem finds_pure {a : α} (h : Q a) : Finds (pure a) Q := by
  intro cs b rest found
  cases found
  exact h

theorem finds_failure : Finds (failure : Scanner α) Q := nofun

theorem finds_lift {o : Option α} (h : ∀ a, o = some a → Q a) : Finds (liftM o) Q := by
  intro cs a rest found
  cases o with
  | none => cases found
  | some b =>
    cases found
    exact h a rfl

theorem Finds.bind {s : Scanner β} {f : β → Scanner α} (hs : Finds s P) (hf : ∀ b, P b → Finds (f b) Q) :
    Finds (s >>= f) Q := by
  intro cs a rest found
  obtain ⟨⟨b, mid⟩, first, second⟩ := Option.bind_eq_some_iff.1 found
  exact hf b (hs cs b mid first) mid a rest second

theorem finds_failure_bind {f : β → Scanner α} : Finds (failure >>= f) Q :=
  Finds.bind (P := fun _ => False) nofun nofun

theorem finds_bind {s : Scanner β} {f : β → Scanner α} (hf : ∀ b, Finds (f b) Q) : Finds (s >>= f) Q :=
  Finds.bind (P := fun _ => True) (fun _ _ _ _ => trivial) fun b _ => hf b

theorem Finds.map {s : Scanner β} {f : β → α} (hs : Finds s P) (hf : ∀ b, P b → Q (f b)) :
    Finds (f <$> s) Q :=
  hs.bind fun b hb => finds_pure (hf b hb)

theorem Finds.orElse {s t : Scanner α} (hs : Finds s Q) (ht : Finds t Q) : Finds (s <|> t) Q := by
  intro cs a rest found
  change ((s.run cs) <|> (t.run cs)) = some (a, rest) at found
  cases first : s.run cs with
  | none =>
    rw [first] at found
    exact ht cs a rest found
  | some x =>
    rw [first] at found
    cases found
    exact hs cs a rest first

end Scanner

open Scanner

namespace Number

def InRange (n : Int) : Prop := minInteger ≤ n ∧ n ≤ maxInteger

theorem finds_checked (n : Int) : Finds (checked n) InRange := by
  unfold checked
  split
  · exact finds_pure ‹_›
  · exact finds_failure

theorem finds_marked (mark : String) (p : Char → Bool) (base : Nat) :
    Finds (marked mark p base) InRange :=
  finds_bind fun _ => finds_bind fun _ => finds_checked _

theorem finds_integer : Finds integer InRange := by
  refine (finds_marked _ _ _).orElse ((finds_marked _ _ _).orElse ((finds_marked _ _ _).orElse ?_))
  exact finds_bind fun _ => finds_bind fun _ => finds_checked _

end Number

theorem finds_scalar : Finds scalar Value.Sound := by
  refine finds_bind fun next => ?_
  split
  · exact finds_bind fun chars => finds_pure (.text chars)
  · exact finds_bind fun chars => finds_pure (.text chars)
  · exact finds_bind fun _ => finds_pure (.boolean true)
  · exact finds_bind fun _ => finds_pure (.boolean false)
  · refine Finds.orElse (finds_bind fun literal => finds_pure (.moment literal)) ?_
    refine Finds.orElse (finds_bind fun literal => finds_pure (.float literal)) ?_
    exact Number.finds_integer.map fun n inRange => .integer inRange.1 inRange.2

theorem finds_nested (fuel : Nat) :
    (∀ depth, Finds (value fuel depth) Value.Sound) ∧
    (∀ depth, Finds (items fuel depth) fun vs => ∀ v ∈ vs, v.Sound) ∧
    ∀ depth before, Entries.Sound before → Finds (pairs fuel depth before) Entries.Sound := by
  -- A value, the items of an array and the entries of a table in braces call each other; each call
  -- takes one off the fuel.
  induction fuel with
  | zero => exact ⟨fun _ => finds_failure, fun _ => finds_failure, fun _ _ _ => finds_failure⟩
  | succ fuel ih =>
    obtain ⟨valueSound, itemsSound, pairsSound⟩ := ih
    refine ⟨fun depth => ?_, fun depth => ?_, fun depth before sound => ?_⟩
    · unfold value
      refine finds_bind fun next => ?_
      split
      · split
        · exact finds_failure_bind
        · refine finds_bind fun _ => ?_
          exact (itemsSound _).bind fun vs each => finds_pure (.array each)
      · split
        · exact finds_failure_bind
        · refine finds_bind fun _ => finds_bind fun _ => finds_bind fun next => ?_
          split
          · exact finds_bind fun _ => finds_pure (Entries.sound_table.2 Entries.sound_nil)
          · exact (pairsSound _ _ Entries.sound_nil).bind fun es sound =>
              finds_pure (Entries.sound_table.2 sound)
      · exact finds_scalar
    · unfold items
      refine finds_bind fun _ => finds_bind fun next => ?_
      split
      · exact finds_bind fun _ => finds_pure nofun
      · refine (valueSound depth).bind fun first sound => finds_bind fun _ => finds_bind fun next => ?_
        split
        · refine finds_bind fun _ => (itemsSound depth).bind fun rest each => finds_pure ?_
          exact List.forall_mem_cons.2 ⟨sound, each⟩
        · exact finds_bind fun _ => finds_pure (List.forall_mem_singleton.2 sound)
    · unfold pairs
      refine finds_bind fun ⟨path, key⟩ => finds_bind fun _ => finds_bind fun _ => ?_
      refine (valueSound depth).bind fun v vSound => ?_
      refine (finds_lift fun es assigned => sound.assign vSound assigned).bind fun es sound => ?_
      refine finds_bind fun _ => finds_bind fun next => ?_
      split
      · exact finds_bind fun _ => pairsSound depth es sound
      · exact finds_bind fun _ => finds_pure sound

namespace Document

variable {d : Document}

theorem finds_assignLine (h : d.entries.Sound) : Finds d.assignLine fun d => d.entries.Sound := by
  refine finds_bind fun ⟨path, key⟩ => finds_bind fun _ => finds_bind fun _ => finds_bind fun cs => ?_
  refine ((finds_nested _).1 0).bind fun v sound => finds_bind fun _ => ?_
  refine (finds_lift fun es updated => ?_).bind fun es sound => finds_pure sound
  exact h.update (fun parent assigned => parent.assign sound assigned) updated

theorem finds_headerLine (h : d.entries.Sound) : Finds d.headerLine fun d => d.entries.Sound := by
  refine finds_bind fun _ => finds_bind fun listed => finds_bind fun ⟨path, key⟩ => ?_
  refine finds_bind fun _ => ?_
  cases listed with
  | true =>
    refine finds_bind fun _ => finds_bind fun _ => ?_
    exact (finds_lift fun es opened => h.openListed opened).bind fun es sound => finds_pure sound
  | false =>
    refine finds_bind fun _ => ?_
    exact (finds_lift fun es opened => h.openTable opened).bind fun es sound => finds_pure sound

theorem finds_lines (fuel : Nat) (h : d.entries.Sound) : Finds (lines fuel d) fun d => d.entries.Sound := by
  induction fuel generalizing d with
  | zero => exact finds_pure h
  | succ fuel ih =>
    unfold lines
    refine finds_bind fun _ => finds_bind fun ended => ?_
    split
    · exact finds_pure h
    refine finds_bind fun next => ?_
    split
    · exact finds_bind fun _ => finds_bind fun _ => ih h
    · exact (finds_headerLine h).bind fun d sound => ih sound
    · exact finds_bind fun _ => ih h
    · exact finds_bind fun _ => ih h
    · exact (finds_assignLine h).bind fun d sound => ih sound

theorem parse_sound {text : String} {entries : Entries} (h : parse text = some entries) :
    entries.Sound := by
  obtain ⟨⟨d, rest⟩, read, taken⟩ := Option.bind_eq_some_iff.1 h
  have sound : d.entries.Sound := finds_lines _ Entries.sound_nil _ d rest read
  change (if rest.isEmpty then some d.entries else none) = some entries at taken
  split at taken
  · cases taken
    exact sound
  · cases taken

end Document

end FuseBank.Toml
