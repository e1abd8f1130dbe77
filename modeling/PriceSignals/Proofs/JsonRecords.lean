/-
Module: PriceSignals.Proofs.JsonRecords
Purpose: Records are filled from the members that have been written for them, and passing over
  others. A bar is read from its members, whatever stands behind these.
Main exports:
  Json.fillWith, Members.fill_ofList, foldlM_known, foldlM_optional, foldlM_skip,
  Tree.record_ofList, Items.list_ofList, BarTime.ofJson_toJson, Bar.isWhole_members,
  Bar.foldlM_members, Bar.ofJson_members
-/
import PriceSignals.Annotation.Json
import PriceSignals.Proofs.JsonNumbers
import PriceSignals.Proofs.Results

namespace PriceSignals

namespace Json

/-! ### Strings -/

theorem joinHalves_ofChars (cut : Option Cut) (cs : List Char) :
    joinHalves cut (cs.map .char) = .ok cs := by
  induction cs with
  | nil => rfl
  | cons c cs ih =>
      rw [List.map_cons, joinHalves, ih]
      rfl

/-- A string of characters is read as these. -/
theorem Quoted.read_ofChars (cs : List Char) : (Quoted.ofChars cs).read = .ok cs := by
  have none_stray : (Quoted.ofChars cs).pieces.contains .stray = false := by
    rw [Bool.eq_false_iff, ne_eq, List.contains_iff_mem]
    intro member
    obtain ⟨c, -, same⟩ := List.mem_map.mp member
    cases same
  refine (bind_of_ok (joinHalves_ofChars _ cs) _).trans ?_
  simp only [none_stray]
  rfl

theorem Tree.key_ofString (name : String) : (Tree.ofString name).key = .ok name.toList :=
  Quoted.read_ofChars name.toList

theorem Tree.text_ofString (s : String) : (Tree.ofString s).text = .ok s.toList :=
  Quoted.read_ofChars s.toList

theorem Tree.readFault?_ofString (room : Nat) (s : String) :
    (Tree.ofString s).readFault? room = none := by
  rw [Tree.ofString, Tree.readFault?, Quoted.read_ofChars]

theorem Tree.readFault?_number {l : Decimal.Literal} {n : Numeric}
    (read : Numeric.ofLiteral? l = some n) (room : Nat) :
    (Tree.number l).readFault? room = none := by
  rw [Tree.readFault?, read]
  rfl

/-- A value that is not null is read as one that is there. -/
theorem Tree.optional_of_read {α : Type} {read : Tree → Except Error α} {v : Tree} {a : α}
    (given : v ≠ .null) (reads : read v = .ok a) : v.optional read = .ok (some a) := by
  rw [Tree.optional, reads]
  · rfl
  · exact given

theorem Recovered.optional {x : Float} (recovered : Recovered x) :
    (Tree.ofFloat x).optional Tree.float = .ok (some x) := by
  refine Tree.optional_of_read ?_ recovered.float
  obtain ⟨l, written, -⟩ := recovered.ofFloat
  rw [written]
  exact nofun

theorem Recovered.readFault? {x : Float} (recovered : Recovered x) (room : Nat) :
    (Tree.ofFloat x).readFault? room = none := by
  obtain ⟨l, written, read⟩ := recovered.ofFloat
  rw [written]
  exact Tree.readFault?_number read room

/-! ### Members -/

variable {σ α : Type} {slots : List (Data.Slot σ Tree Error)}
  {other : σ → List Char → Tree → Except Error σ}

/-- Fills the field of a member, or deals with a member that belongs to no field. -/
def fillWith (slots : List (Data.Slot σ Tree Error))
    (other : σ → List Char → Tree → Except Error σ) (s : σ) (m : String × Tree) :
    Except Error σ :=
  match Data.Slot.find? slots m.1 with
  | some slot => slot.fill s m.2
  | none => other s m.1.toList m.2

/-- Members with different names are dealt with one after the other. -/
theorem Members.fill_ofList {seen : List String} {s : σ} {ms : List (String × Tree)}
    (distinct : (ms.map (·.1)).Nodup) (fresh : ∀ m ∈ ms, m.1 ∉ seen) :
    (Members.ofList ms).fill slots other seen s = ms.foldlM (fillWith slots other) s := by
  induction ms generalizing seen s with
  | nil => rfl
  | cons m ms ih =>
      obtain ⟨name, v⟩ := m
      rw [List.map_cons, List.nodup_cons] at distinct
      have later : ∀ m ∈ ms, m.1 ∉ seen := fun m member => fresh m (List.mem_cons_of_mem _ member)
      have unseen : seen.contains name = false := by
        rw [Bool.eq_false_iff, ne_eq, List.contains_iff_mem]
        exact fresh _ List.mem_cons_self
      have further : ∀ m ∈ ms, m.1 ∉ name :: seen := by
        intro m member inside
        rcases List.mem_cons.mp inside with same | before
        · exact distinct.1 (List.mem_map.mpr ⟨m, member, same⟩)
        · exact later m member before
      rw [List.foldlM_cons, Members.ofList, Members.fill]
      refine (bind_of_ok (Tree.key_ofString name) _).trans ?_
      dsimp only
      rw [String.ofList_toList]
      unfold fillWith
      dsimp only
      cases known : Data.Slot.find? slots name with
      | none =>
          dsimp only
          cases dealt : other s name.toList v with
          | error e => rfl
          | ok t => exact ih distinct.2 later
      | some slot =>
          dsimp only
          rw [unseen]
          cases filled : slot.fill s v with
          | error e => rfl
          | ok t => exact ih distinct.2 further

/-- A member of a field fills it. -/
theorem foldlM_known {s s' : σ} {name : String} {v : Tree} {rest : List (String × Tree)}
    {slot : Data.Slot σ Tree Error} (known : Data.Slot.find? slots name = some slot)
    (filled : slot.fill s v = .ok s') :
    ((name, v) :: rest).foldlM (fillWith slots other) s
      = rest.foldlM (fillWith slots other) s' := by
  have step : fillWith slots other s (name, v) = .ok s' := by
    rw [fillWith, known]
    exact filled
  rw [List.foldlM_cons]
  exact bind_of_ok step _

/-- A member that may be left out fills its field where it is there, and leaves it empty where it is
not. -/
theorem foldlM_optional {s : σ} {name : String} {toTree : α → Tree} {o : Option α}
    {rest : List (String × Tree)} {slot : Data.Slot σ Tree Error} {read : Tree → Except Error α}
    {set : Option α → σ} (known : Data.Slot.find? slots name = some slot)
    (fills : ∀ v, slot.fill s v = v.optional read >>= fun x => pure (set x))
    (empty : set none = s)
    (reads : ∀ a, o = some a → (toTree a).optional read = .ok (some a)) :
    (Annotated.presentMember name toTree o ++ rest).foldlM (fillWith slots other) s
      = rest.foldlM (fillWith slots other) (set o) := by
  cases o with
  | none =>
      rw [empty]
      rfl
  | some a =>
      refine foldlM_known known ?_
      rw [fills]
      exact bind_of_ok (reads a rfl) _

/-- Members that may be left out have no other names. -/
theorem names_presentMember (name : String) (toTree : α → Tree) (o : Option α) :
    ((Annotated.presentMember name toTree o).map (·.1)).Sublist [name] := by
  cases o with
  | none => exact List.nil_sublist _
  | some a => exact List.Sublist.refl _

/-- A member that may be left out is whole if every value of it is. -/
theorem isWhole_presentMember {name : String} {toTree : α → Tree} (whole : ∀ a, (toTree a).IsWhole)
    {o : Option α} {m : String × Tree} (member : m ∈ Annotated.presentMember name toTree o) :
    m.2.IsWhole := by
  cases o with
  | none => cases member
  | some a =>
      obtain rfl := List.mem_singleton.mp member
      exact whole a

/-- Members that are no fields are passed over if they can be read at all. -/
theorem foldlM_skip (s : σ) {rest : List (String × Tree)}
    (unknown : ∀ m ∈ rest, Data.Slot.find? slots m.1 = none)
    (whole : ∀ m ∈ rest, m.2.IsWhole) :
    rest.foldlM (fillWith slots skipMember) s = .ok s := by
  induction rest with
  | nil => rfl
  | cons m rest ih =>
      have step : fillWith slots skipMember s m = .ok s := by
        rw [fillWith, unknown m List.mem_cons_self]
        dsimp only
        rw [skipMember, Tree.skipFault?_of_isWhole m.2 (whole m List.mem_cons_self)]
      rw [List.foldlM_cons]
      refine (bind_of_ok step _).trans ?_
      exact ih (fun m member => unknown m (List.mem_cons_of_mem _ member))
        fun m member => whole m (List.mem_cons_of_mem _ member)

/-- A record is read from its members. -/
theorem Tree.record_ofList {type : String} {start s : σ} {a : α}
    {finish : Data.Absence → σ → Except Data.Fault α} {ms : List (String × Tree)}
    (distinct : (ms.map (·.1)).Nodup)
    (filled : ms.foldlM (fillWith slots skipMember) start = .ok s)
    (finished : finish .named s = .ok a) :
    (Tree.object (Members.ofList ms)).record type slots start finish = .ok a := by
  have fill : (Members.ofList ms).fill slots skipMember [] start = .ok s :=
    (Members.fill_ofList distinct fun _ _ => List.not_mem_nil).trans filled
  refine (bind_of_ok fill _).trans ?_
  rw [finished]
  rfl

/-- The items of an array are read one by one. -/
theorem Items.list_ofList {β : Type} {read : Tree → Except Error β} {write : α → Tree}
    {value : α → β} {items : List α} (reads : ∀ a ∈ items, read (write a) = .ok (value a)) :
    (Items.ofList (items.map write)).list read = .ok (items.map value) := by
  induction items with
  | nil => rfl
  | cons a items ih =>
      refine (bind_of_ok (reads a List.mem_cons_self) _).trans ?_
      exact bind_of_ok (ih fun b member => reads b (List.mem_cons_of_mem a member)) _

end Json

/-! ### Times -/

namespace BarTime

/-- The doubles of a time. -/
def floats : BarTime → List Float
  | fractional secs => [secs]
  | _ => []

theorem isWhole_toJson (t : BarTime) : t.toJson.IsWhole := by
  cases t with
  | unix secs => exact Json.Tree.isWhole_ofInt secs.toInt
  | fractional secs => exact Json.Tree.isWhole_ofFloat secs
  | text chars => exact Json.Tree.isWhole_ofString chars

/-- How a time stands in JSON: in its own variant. -/
theorem ofJson_toJson {t : BarTime} (recovered : ∀ x ∈ t.floats, Json.Recovered x) (room : Nat) :
    t.toJson.readFault? room = none ∧ ofJson room t.toJson = .ok t := by
  have of_number {l : Decimal.Literal} {n : Json.Numeric}
      (read : Json.Numeric.ofLiteral? l = some n) : (Json.Tree.number l).readFault? room = none :=
    Json.Tree.readFault?_number read room
  cases t with
  | unix secs =>
      have upper : secs.toInt ≤ Int64.maxValue.toInt := secs.toInt_le
      have lower : Int64.minValue.toInt ≤ secs.toInt := secs.minValue_le_toInt
      have greatest : Int64.maxValue.toInt = 2 ^ 63 - 1 := by decide
      have least : Int64.minValue.toInt = -2 ^ 63 := by decide
      have bound : Json.significandBound = 2 ^ 64 := rfl
      rcases Int.lt_or_le secs.toInt 0 with below | above
      · obtain ⟨n, value⟩ : ∃ n : Nat, secs.toInt = -(n : Int) := ⟨secs.toInt.natAbs, by omega⟩
        obtain ⟨l, written, read⟩ := @Json.Tree.ofInt_negative n (by omega) (by omega)
        have whole := of_number read
        rw [toJson, value, written]
        refine ⟨whole, ?_⟩
        rw [ofJson, whole]
        dsimp only
        rw [read]
        dsimp only
        rw [← value, Int64.ofInt_toInt]
      · obtain ⟨n, value⟩ : ∃ n : Nat, secs.toInt = n := ⟨secs.toInt.natAbs, by omega⟩
        obtain ⟨l, written, read⟩ := @Json.Tree.ofInt_natural n (by omega)
        have whole := of_number read
        rw [toJson, value, written]
        refine ⟨whole, ?_⟩
        rw [ofJson, whole]
        dsimp only
        rw [read]
        dsimp only
        rw [if_pos (by omega), ← Int64.ofInt_eq_ofNat, ← value, Int64.ofInt_toInt]
  | fractional secs =>
      obtain ⟨l, written, read⟩ := (recovered secs (List.mem_singleton_self secs)).ofFloat
      have whole := of_number read
      rw [toJson, written]
      refine ⟨whole, ?_⟩
      rw [ofJson, whole]
      dsimp only
      rw [read]
  | text chars =>
      have whole := Json.Tree.readFault?_ofString room chars
      refine ⟨whole, ?_⟩
      rw [toJson, ofJson, whole]
      refine (bind_of_ok (Json.Quoted.read_ofChars chars.toList) _).trans ?_
      rw [String.ofList_toList]
      rfl

end BarTime

/-! ### Bars -/

namespace Bar

/-- The doubles of a bar. -/
def floats (b : Bar) : List Float :=
  b.time.floats ++ [b.opening, b.high, b.low, b.close] ++ b.volume.toList

/-- A bar all of whose fields have been met. -/
def filled (b : Bar) : PartialBar :=
  { time := some b.time, opening := some b.opening, high := some b.high, low := some b.low,
    close := some b.close, volume := b.volume }

theorem finish_filled (b : Bar) (a : Data.Absence) : b.filled.finish a = .ok b := rfl

theorem members_eq (b : Bar) :
    b.members = ("time", b.time.toJson) :: ("open", Json.Tree.ofFloat b.opening)
      :: ("high", Json.Tree.ofFloat b.high) :: ("low", Json.Tree.ofFloat b.low)
      :: ("close", Json.Tree.ofFloat b.close)
      :: Annotated.presentMember "volume" Json.Tree.ofFloat b.volume := by
  unfold members
  cases b.volume with
  | none => rfl
  | some x => rfl

theorem isWhole_members (b : Bar) {m : String × Json.Tree} (member : m ∈ b.members) :
    m.2.IsWhole := by
  have number := Json.Tree.isWhole_ofFloat
  rw [members_eq] at member
  simp only [List.mem_cons] at member
  rcases member with rfl | rfl | rfl | rfl | rfl | volume
  · exact b.time.isWhole_toJson
  · exact number b.opening
  · exact number b.high
  · exact number b.low
  · exact number b.close
  · exact Json.isWhole_presentMember number volume

/-- The members of a bar can be read whole, however deep they stand. -/
theorem readFault?_members {b : Bar} (recovered : ∀ x ∈ b.floats, Json.Recovered x) (room : Nat)
    {m : String × Json.Tree} (member : m ∈ b.members) : m.2.readFault? room = none := by
  have number {x : Float} (part : x ∈ b.floats) : (Json.Tree.ofFloat x).readFault? room = none :=
    (recovered x part).readFault? room
  rw [members_eq] at member
  simp only [List.mem_cons] at member
  rcases member with rfl | rfl | rfl | rfl | rfl | volume
  · exact (BarTime.ofJson_toJson (fun x part => recovered x (by simp [floats, part])) room).1
  · exact number (by simp [floats])
  · exact number (by simp [floats])
  · exact number (by simp [floats])
  · exact number (by simp [floats])
  · cases given : b.volume with
    | none =>
        rw [given] at volume
        cases volume
    | some x =>
        rw [given] at volume
        obtain rfl := List.mem_singleton.mp volume
        exact number (by simp [floats, given])

/-- The members of a bar fill its fields. -/
theorem foldlM_members {b : Bar} (recovered : ∀ x ∈ b.floats, Json.Recovered x) (room : Nat)
    (other : PartialBar → List Char → Json.Tree → Except Json.Error PartialBar)
    (rest : List (String × Json.Tree)) :
    (b.members ++ rest).foldlM (Json.fillWith (slots room) other) {}
      = rest.foldlM (Json.fillWith (slots room) other) b.filled := by
  have times : ∀ x ∈ b.time.floats, Json.Recovered x := fun x member =>
    recovered x (by simp [floats, member])
  have time := (BarTime.ofJson_toJson times room).2
  have opening := (recovered b.opening (by simp [floats])).float
  have high := (recovered b.high (by simp [floats])).float
  have low := (recovered b.low (by simp [floats])).float
  have close := (recovered b.close (by simp [floats])).float
  rw [members_eq]
  simp only [List.cons_append]
  refine (Json.foldlM_known rfl (bind_of_ok time _)).trans ?_
  refine (Json.foldlM_known rfl (bind_of_ok opening _)).trans ?_
  refine (Json.foldlM_known rfl (bind_of_ok high _)).trans ?_
  refine (Json.foldlM_known rfl (bind_of_ok low _)).trans ?_
  refine (Json.foldlM_known rfl (bind_of_ok close _)).trans ?_
  refine Json.foldlM_optional rfl (fun _ => rfl) rfl ?_
  intro x volume
  exact (recovered x (by simp [floats, volume])).optional

/-- The names of the members of a bar. -/
def names : List String := ["time", "open", "high", "low", "close", "volume"]

theorem names_members (b : Bar) : (b.members.map (·.1)).Sublist names := by
  have volume := Json.names_presentMember "volume" Json.Tree.ofFloat b.volume
  rw [members_eq]
  exact ((((volume.cons_cons _).cons_cons _).cons_cons _).cons_cons _).cons_cons _

/-- A bar is read from an object that begins with its members, whatever else stands in it. -/
theorem ofJson_members {b : Bar} (recovered : ∀ x ∈ b.floats, Json.Recovered x) (depth : Nat)
    {rest : List (String × Json.Tree)} (distinct : ((b.members ++ rest).map (·.1)).Nodup)
    (others : ∀ m ∈ rest, m.1 ∉ names) (whole : ∀ m ∈ rest, m.2.IsWhole) :
    ofJson depth (.object (Json.Members.ofList (b.members ++ rest))) = .ok b := by
  refine Json.Tree.record_ofList distinct ?_ (b.finish_filled .named)
  rw [foldlM_members recovered]
  refine Json.foldlM_skip b.filled ?_ whole
  intro m member
  apply List.find?_eq_none.mpr
  intro slot inside same
  have named : slot.name ∈ names := by
    simp only [slots, PartialBar.slots, List.mem_cons, List.not_mem_nil, or_false] at inside
    rcases inside with rfl | rfl | rfl | rfl | rfl | rfl
    all_goals simp [names]
  exact others m member (eq_of_beq same ▸ named)

theorem ofJson_toJson {b : Bar} (recovered : ∀ x ∈ b.floats, Json.Recovered x) :
    ofJson 0 b.toJson = .ok b := by
  have distinct : ((b.members ++ []).map Prod.fst).Nodup := by
    rw [List.append_nil]
    exact (by decide : names.Nodup).sublist b.names_members
  have read := ofJson_members recovered 0 distinct (fun _ => nofun) (fun _ => nofun)
  rwa [List.append_nil] at read

theorem isWhole_toJson (b : Bar) : b.toJson.IsWhole :=
  Json.Members.isWhole_ofList fun _ => b.isWhole_members

end Bar

end PriceSignals
