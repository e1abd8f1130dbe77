/-
Module: PriceSignals.Proofs.JsonValues
Purpose: JSON undoes itself: whatever value is written, with all its doubles recovered, it is read
  back, absent fields being absent and present ones present.
Main exports:
  Annotated.derived, Annotated.ofJson_toJson, Verdict.ofJson_toJson, Settings.ofJson_toJson,
  DataType, DataType.parse, DataType.print, json_undoes_itself
-/
import PriceSignals.Proofs.InstantReadBack
import PriceSignals.Proofs.JsonRecords
import PriceSignals.Settings.Json
import PriceSignals.Verdict.Json

namespace PriceSignals

open Json (Tree Members Items Recovered)

/-! ### Indicators -/

namespace PartialTriple

variable {first second third : String} {x y z : Float}

/-- Three numbers fill the fields under whose names they stand. -/
theorem foldlM_members (distinct : [first, second, third].Nodup) (first_read : Recovered x)
    (second_read : Recovered y) (third_read : Recovered z) :
    [(first, Tree.ofFloat x), (second, Tree.ofFloat y), (third, Tree.ofFloat z)].foldlM
        (Json.fillWith (slots first second third) Json.skipMember) {}
      = .ok ⟨some x, some y, some z⟩ := by
  simp only [List.nodup_cons, List.mem_cons, List.not_mem_nil, or_false, not_or] at distinct
  obtain ⟨⟨not_second, not_third⟩, other, -⟩ := distinct
  have known_first : Data.Slot.find? (slots first second third) first = some _ :=
    List.find?_cons_of_pos (beq_self_eq_true first)
  have known_second : Data.Slot.find? (slots first second third) second = some _ :=
    (List.find?_cons_of_neg (by simpa using not_second)).trans
      (List.find?_cons_of_pos (beq_self_eq_true second))
  have known_third : Data.Slot.find? (slots first second third) third = some _ :=
    (List.find?_cons_of_neg (by simpa using not_third)).trans
      ((List.find?_cons_of_neg (by simpa using other)).trans
        (List.find?_cons_of_pos (beq_self_eq_true third)))
  refine (Json.foldlM_known known_first (bind_of_ok first_read.float _)).trans ?_
  refine (Json.foldlM_known known_second (bind_of_ok second_read.float _)).trans ?_
  exact Json.foldlM_known known_third (bind_of_ok third_read.float _)

theorem isWhole_members (first second third : String) (x y z : Float) :
    (Tree.object (Members.ofList
      [(first, Tree.ofFloat x), (second, Tree.ofFloat y), (third, Tree.ofFloat z)])).IsWhole := by
  have number := Tree.isWhole_ofFloat
  exact ⟨⟨_, rfl⟩, number x, ⟨_, rfl⟩, number y, ⟨_, rfl⟩, number z, trivial⟩

end PartialTriple

namespace Indicator

/-- The doubles of bands. -/
def Bands.floats (b : Bands) : List Float := [b.upper, b.middle, b.lower]

/-- The doubles of a convergence. -/
def Convergence.floats (c : Convergence) : List Float := [c.line, c.signal, c.histogram]

theorem Bands.ofJson_toJson {b : Bands} (recovered : ∀ x ∈ b.floats, Recovered x) :
    ofJson b.toJson = .ok b := by
  have distinct : ["upper", "middle", "lower"].Nodup := by decide
  have filled := PartialTriple.foldlM_members distinct (recovered b.upper (by simp [floats]))
    (recovered b.middle (by simp [floats])) (recovered b.lower (by simp [floats]))
  exact Tree.record_ofList distinct filled rfl

theorem Convergence.ofJson_toJson {c : Convergence} (recovered : ∀ x ∈ c.floats, Recovered x) :
    ofJson c.toJson = .ok c := by
  have distinct : ["macd", "signal", "histogram"].Nodup := by decide
  have filled := PartialTriple.foldlM_members distinct (recovered c.line (by simp [floats]))
    (recovered c.signal (by simp [floats])) (recovered c.histogram (by simp [floats]))
  exact Tree.record_ofList distinct filled rfl

theorem Bands.isWhole_toJson (b : Bands) : b.toJson.IsWhole :=
  PartialTriple.isWhole_members _ _ _ b.upper b.middle b.lower

theorem Convergence.isWhole_toJson (c : Convergence) : c.toJson.IsWhole :=
  PartialTriple.isWhole_members _ _ _ c.line c.signal c.histogram

end Indicator

theorem Time.Instant.ofJson_toJson (t : Time.Instant) : ofJson t.toJson = .ok t := by
  have chars : (t.text .zulu).toList = t.textChars .zulu := String.toList_ofList
  refine (bind_of_ok (Json.Quoted.read_ofChars _) _).trans ?_
  rw [chars, t.readLenient_textChars]
  rfl

/-! ### Annotated bars -/

namespace Annotated

/-- The doubles of an annotated bar. -/
def floats (a : Annotated) : List Float :=
  a.bar.floats ++ a.sma.toList ++ a.emaFast.toList ++ a.emaSlow.toList ++ a.rsi.toList
    ++ a.bollinger.toList.flatMap Indicator.Bands.floats
    ++ a.macd.toList.flatMap Indicator.Convergence.floats

/-- The members of an annotated bar behind those of the bar. -/
def derived (a : Annotated) : List (String × Tree) :=
  presentMember "date" Time.Instant.toJson a.date
    ++ (presentMember "sma20" Tree.ofFloat a.sma
    ++ (presentMember "ema12" Tree.ofFloat a.emaFast
    ++ (presentMember "ema26" Tree.ofFloat a.emaSlow
    ++ (presentMember "rsi14" Tree.ofFloat a.rsi
    ++ (presentMember "bollinger" Indicator.Bands.toJson a.bollinger
    ++ (presentMember "macd" Indicator.Convergence.toJson a.macd ++ []))))))

theorem toJson_eq (a : Annotated) :
    a.toJson = .object (Members.ofList (a.bar.members ++ a.derived)) := by
  unfold toJson derived
  simp only [List.append_assoc, List.append_nil]

/-- The names of the derived members. -/
def derivedNames : List String := ["date", "sma20", "ema12", "ema26", "rsi14", "bollinger", "macd"]

theorem names_derived (a : Annotated) : (a.derived.map (·.1)).Sublist derivedNames := by
  have present {α : Type} (name : String) (toTree : α → Tree) (o : Option α)
      {rest : List (String × Tree)} {names : List String}
      (others : (rest.map (·.1)).Sublist names) :
      ((presentMember name toTree o ++ rest).map (·.1)).Sublist (name :: names) := by
    rw [List.map_append]
    exact (Json.names_presentMember name toTree o).append others
  exact present _ _ _ (present _ _ _ (present _ _ _ (present _ _ _ (present _ _ _ (present _ _ _
    (present _ _ _ (List.Sublist.refl []))))))) 

theorem distinct_names (a : Annotated) : ((a.bar.members ++ a.derived).map (·.1)).Nodup := by
  have distinct : (Bar.names ++ derivedNames).Nodup := by decide
  rw [List.map_append]
  exact distinct.sublist (a.bar.names_members.append a.names_derived)

theorem isWhole_derived (a : Annotated) {m : String × Tree} (member : m ∈ a.derived) :
    m.2.IsWhole := by
  have number := Tree.isWhole_ofFloat
  have dated (t : Time.Instant) : t.toJson.IsWhole := Tree.isWhole_ofString (t.text .zulu)
  unfold derived at member
  rcases List.mem_append.mp member with date | member
  · exact Json.isWhole_presentMember dated date
  rcases List.mem_append.mp member with sma | member
  · exact Json.isWhole_presentMember number sma
  rcases List.mem_append.mp member with fast | member
  · exact Json.isWhole_presentMember number fast
  rcases List.mem_append.mp member with slow | member
  · exact Json.isWhole_presentMember number slow
  rcases List.mem_append.mp member with rsi | member
  · exact Json.isWhole_presentMember number rsi
  rcases List.mem_append.mp member with bands | member
  · exact Json.isWhole_presentMember Indicator.Bands.isWhole_toJson bands
  rcases List.mem_append.mp member with convergence | none_left
  · exact Json.isWhole_presentMember Indicator.Convergence.isWhole_toJson convergence
  · exact absurd none_left List.not_mem_nil

theorem isWhole_toJson (a : Annotated) : a.toJson.IsWhole := by
  rw [toJson_eq]
  refine Members.isWhole_ofList fun m member => ?_
  rcases List.mem_append.mp member with bar | derived
  · exact a.bar.isWhole_members bar
  · exact a.isWhole_derived derived

end Annotated

namespace PartialAnnotated

/-- Members of the bar are kept, the latest first. -/
theorem foldlM_keep {room : Nat} {ms : List (String × Tree)} (a : PartialAnnotated)
    (unknown : ∀ m ∈ ms, Data.Slot.find? slots m.1 = none)
    (whole : ∀ m ∈ ms, m.2.readFault? room = none) (rest : List (String × Tree)) :
    (ms ++ rest).foldlM (Json.fillWith slots (keep room)) a
      = rest.foldlM (Json.fillWith slots (keep room))
          { a with others := (ms.map fun m => (m.1.toList, m.2)).reverse ++ a.others } := by
  induction ms generalizing a with
  | nil => rfl
  | cons m ms ih =>
      have step : Json.fillWith slots (keep room) a m
          = .ok { a with others := (m.1.toList, m.2) :: a.others } := by
        rw [Json.fillWith, unknown m List.mem_cons_self]
        dsimp only
        rw [keep, whole m List.mem_cons_self]
      rw [List.cons_append, List.foldlM_cons]
      refine (bind_of_ok step _).trans ?_
      rw [ih _ (fun m member => unknown m (List.mem_cons_of_mem _ member))
        fun m member => whole m (List.mem_cons_of_mem _ member)]
      simp only [List.map_cons, List.reverse_cons, List.append_assoc, List.singleton_append]

/-- What has been kept are the members as they stood. -/
theorem kept_reverse {a : PartialAnnotated} {ms : List (String × Tree)}
    (others : a.others = (ms.map fun m => (m.1.toList, m.2)).reverse) :
    a.kept = Members.ofList ms := by
  rw [kept, others, List.foldl_reverse, List.foldr_map]
  clear others
  induction ms with
  | nil => rfl
  | cons m ms ih =>
      rw [List.foldr_cons, ih]
      rfl

end PartialAnnotated

namespace Annotated

/-- The derived members fill their fields. -/
theorem foldlM_derived {a : Annotated} (recovered : ∀ x ∈ a.floats, Recovered x) (room : Nat)
    (others : List (List Char × Tree)) :
    a.derived.foldlM (Json.fillWith PartialAnnotated.slots (PartialAnnotated.keep room)) { others }
      = .ok { date := a.date, sma := a.sma, emaFast := a.emaFast, emaSlow := a.emaSlow,
              rsi := a.rsi, bollinger := a.bollinger, macd := a.macd, others } := by
  have number {o : Option Float} (part : ∀ x, o = some x → x ∈ a.floats) (x : Float)
      (given : o = some x) : (Tree.ofFloat x).optional Tree.float = .ok (some x) :=
    (recovered x (part x given)).optional
  unfold derived
  refine Eq.trans (Json.foldlM_optional rfl (fun _ => rfl) rfl ?_) ?_
  · exact fun t _ => Tree.optional_of_read nofun t.ofJson_toJson
  refine Eq.trans (Json.foldlM_optional rfl (fun _ => rfl) rfl (number ?_)) ?_
  · exact fun x given => by simp [floats, given]
  refine Eq.trans (Json.foldlM_optional rfl (fun _ => rfl) rfl (number ?_)) ?_
  · exact fun x given => by simp [floats, given]
  refine Eq.trans (Json.foldlM_optional rfl (fun _ => rfl) rfl (number ?_)) ?_
  · exact fun x given => by simp [floats, given]
  refine Eq.trans (Json.foldlM_optional rfl (fun _ => rfl) rfl (number ?_)) ?_
  · exact fun x given => by simp [floats, given]
  refine Eq.trans (Json.foldlM_optional rfl (fun _ => rfl) rfl ?_) ?_
  · intro b given
    refine Tree.optional_of_read nofun (Indicator.Bands.ofJson_toJson fun x member => ?_)
    exact recovered x (by simp [floats, given, member])
  refine Eq.trans (Json.foldlM_optional rfl (fun _ => rfl) rfl ?_) ?_
  · intro c given
    refine Tree.optional_of_read nofun (Indicator.Convergence.ofJson_toJson fun x member => ?_)
    exact recovered x (by simp [floats, given, member])
  rfl

/-- No member of a bar is a derived one. -/
theorem find?_bar_members (b : Bar) {m : String × Tree} (member : m ∈ b.members) :
    Data.Slot.find? PartialAnnotated.slots m.1 = none := by
  have unknown :
      (Bar.names.all fun name => (Data.Slot.find? PartialAnnotated.slots name).isNone) = true := by
    decide
  have named : m.1 ∈ Bar.names := b.names_members.subset (List.mem_map_of_mem member)
  exact Option.isNone_iff_eq_none.mp (List.all_eq_true.mp unknown m.1 named)

theorem ofJson_toJson {a : Annotated} (recovered : ∀ x ∈ a.floats, Recovered x) :
    ofJson a.toJson = .ok a := by
  have bar_recovered : ∀ x ∈ a.bar.floats, Recovered x := fun x member =>
    recovered x (by simp [floats, member])
  have distinct : (a.bar.members.map (·.1)).Nodup :=
    (by decide : Bar.names.Nodup).sublist a.bar.names_members
  have filled := @Members.fill_ofList _ PartialAnnotated.slots
    (PartialAnnotated.keep (Json.maxDepth - 1)) [] {} _ a.distinct_names
    fun _ _ => List.not_mem_nil
  rw [PartialAnnotated.foldlM_keep {} (fun m => find?_bar_members a.bar)
    fun m => Bar.readFault?_members bar_recovered _, foldlM_derived recovered] at filled
  have bar : (Members.ofList a.bar.members).fill (Bar.slots (Json.maxDepth - 1)) Json.skipMember []
      {} = .ok a.bar.filled := by
    rw [Members.fill_ofList distinct fun _ _ => List.not_mem_nil]
    have members := Bar.foldlM_members bar_recovered (Json.maxDepth - 1) Json.skipMember []
    rwa [List.append_nil] at members
  rw [toJson_eq]
  refine (bind_of_ok filled _).trans ?_
  rw [PartialAnnotated.kept_reverse (List.append_nil _)]
  exact bind_of_ok bar _

end Annotated

/-! ### Votes and verdicts -/

theorem stringOfJson_ofString (s : String) : stringOfJson (Tree.ofString s) = .ok s := by
  rw [stringOfJson, Tree.text_ofString]
  exact congrArg Except.ok String.ofList_toList

theorem Direction.ofJson_toJson (d : Direction) : ofJson d.toJson = .ok d := by
  cases d with
  | buy => rfl
  | sell => rfl

theorem Stance.ofJson_toJson (s : Stance) : ofJson s.toJson = .ok s := by
  cases s with
  | buy => rfl
  | sell => rfl
  | neutral => rfl

/-- The doubles of a vote. -/
def Hit.floats (h : Hit) : List Float := [h.strength]

theorem Hit.isWhole_toJson (h : Hit) : h.toJson.IsWhole := by
  have number := Tree.isWhole_ofFloat
  have text := Tree.isWhole_ofString
  exact ⟨⟨_, rfl⟩, text _, ⟨_, rfl⟩, number _, ⟨_, rfl⟩, text _, trivial⟩

theorem Hit.ofJson_toJson {h : Hit} (recovered : ∀ x ∈ h.floats, Recovered x) :
    ofJson h.toJson = .ok h := by
  have strength := (recovered h.strength (List.mem_singleton_self _)).float
  have distinct : ["direction", "strength", "reason"].Nodup := by decide
  refine Tree.record_ofList (s := ⟨some h.direction, some h.strength, some h.reason⟩) distinct
    ?_ rfl
  refine (Json.foldlM_known rfl (bind_of_ok h.direction.ofJson_toJson _)).trans ?_
  refine (Json.foldlM_known rfl (bind_of_ok strength _)).trans ?_
  exact Json.foldlM_known rfl (bind_of_ok (stringOfJson_ofString h.reason) _)

theorem Json.Tree.natural_ofInt {n bound : Nat} (fits : n < bound)
    (small : bound ≤ Json.significandBound) (expected : String) :
    (Tree.ofInt n).natural bound expected = .ok n := by
  obtain ⟨l, written, read⟩ := Tree.ofInt_natural (Nat.lt_of_lt_of_le fits small)
  rw [written, Tree.natural, read]
  exact if_pos fits

theorem Verdict.isWhole_toJson (v : Verdict) : v.toJson.IsWhole := by
  have text := Tree.isWhole_ofString
  have reasons : (Items.ofList (v.reasons.map Tree.ofString)).IsWhole := by
    refine Items.isWhole_ofList fun w member => ?_
    obtain ⟨s, -, rfl⟩ := List.mem_map.mp member
    exact text s
  exact ⟨⟨_, rfl⟩, text _, ⟨_, rfl⟩, Tree.isWhole_ofInt _, ⟨_, rfl⟩, reasons, trivial⟩

theorem Verdict.ofJson_toJson (v : Verdict) : ofJson v.toJson = .ok v := by
  have strength := Json.Tree.natural_ofInt (UInt8.toNat_lt v.strength) (by decide) "u8"
  have reasons : (Tree.array (Items.ofList (v.reasons.map Tree.ofString))).list stringOfJson
      = .ok v.reasons := by
    have items := Items.list_ofList fun s (_ : s ∈ v.reasons) => stringOfJson_ofString s
    rwa [List.map_id'] at items
  have distinct : ["type", "strength", "reasons"].Nodup := by decide
  refine Tree.record_ofList (s := ⟨some v.stance, some v.strength, some v.reasons⟩) distinct ?_ rfl
  refine (Json.foldlM_known rfl (bind_of_ok v.stance.ofJson_toJson _)).trans ?_
  refine (Json.foldlM_known rfl (bind_of_ok strength _)).trans ?_
  rw [UInt8.ofNat_toNat]
  exact Json.foldlM_known rfl (bind_of_ok reasons _)

/-! ### Settings -/

theorem wordOfJson_wordToJson (n : UInt64) : wordOfJson (wordToJson n) = .ok n := by
  rw [wordOfJson, wordToJson, Json.Tree.natural_ofInt n.toNat_lt (Nat.le_refl _)]
  exact congrArg Except.ok UInt64.ofNat_toNat

/-- The doubles of the indicators' settings. -/
def IndicatorSettings.floats (s : IndicatorSettings) : List Float := [s.bollingerMultiplier]

theorem IndicatorSettings.isWhole_toJson (s : IndicatorSettings) : s.toJson.IsWhole := by
  have whole := Tree.isWhole_ofInt
  have number := Tree.isWhole_ofFloat
  exact ⟨⟨_, rfl⟩, whole _, ⟨_, rfl⟩, whole _, ⟨_, rfl⟩, whole _, ⟨_, rfl⟩, number _, ⟨_, rfl⟩,
    whole _, ⟨_, rfl⟩, whole _, ⟨_, rfl⟩, whole _, trivial⟩

theorem IndicatorSettings.ofJson_toJson {s : IndicatorSettings}
    (recovered : ∀ x ∈ s.floats, Recovered x) : ofJson s.toJson = .ok s := by
  have multiplier := (recovered s.bollingerMultiplier (List.mem_singleton_self _)).float
  have distinct : ["sma_period", "rsi_period", "bollinger_period", "bollinger_multiplier",
      "macd_fast", "macd_slow", "macd_signal"].Nodup := by decide
  have word := wordOfJson_wordToJson
  refine Tree.record_ofList (s := s) distinct ?_ rfl
  refine (Json.foldlM_known rfl (bind_of_ok (word s.smaPeriod) _)).trans ?_
  refine (Json.foldlM_known rfl (bind_of_ok (word s.rsiPeriod) _)).trans ?_
  refine (Json.foldlM_known rfl (bind_of_ok (word s.bollingerPeriod) _)).trans ?_
  refine (Json.foldlM_known rfl (bind_of_ok multiplier _)).trans ?_
  refine (Json.foldlM_known rfl (bind_of_ok (word s.macdFast) _)).trans ?_
  refine (Json.foldlM_known rfl (bind_of_ok (word s.macdSlow) _)).trans ?_
  exact Json.foldlM_known rfl (bind_of_ok (word s.macdSignal) _)

/-- The doubles of thresholds. -/
def Thresholds.floats (t : Thresholds) : List Float := [t.oversold, t.overbought]

theorem Thresholds.isWhole_toJson (t : Thresholds) : t.toJson.IsWhole := by
  have number := Tree.isWhole_ofFloat
  exact ⟨⟨_, rfl⟩, number _, ⟨_, rfl⟩, number _, trivial⟩

theorem Thresholds.ofJson_toJson {t : Thresholds} (recovered : ∀ x ∈ t.floats, Recovered x) :
    ofJson t.toJson = .ok t := by
  have oversold := (recovered t.oversold (by simp [floats])).float
  have overbought := (recovered t.overbought (by simp [floats])).float
  have distinct : ["rsi_oversold", "rsi_overbought"].Nodup := by decide
  refine Tree.record_ofList (s := t) distinct ?_ rfl
  refine (Json.foldlM_known rfl (bind_of_ok oversold _)).trans ?_
  exact Json.foldlM_known rfl (bind_of_ok overbought _)

/-- The doubles of all settings. -/
def Settings.floats (s : Settings) : List Float := s.indicators.floats ++ s.thresholds.floats

theorem Settings.isWhole_toJson (s : Settings) : s.toJson.IsWhole :=
  ⟨⟨_, rfl⟩, s.indicators.isWhole_toJson, ⟨_, rfl⟩, s.thresholds.isWhole_toJson, trivial⟩

theorem Settings.ofJson_toJson {s : Settings} (recovered : ∀ x ∈ s.floats, Recovered x) :
    ofJson s.toJson = .ok s := by
  have indicators := IndicatorSettings.ofJson_toJson fun x member =>
    recovered x (List.mem_append_left _ member)
  have thresholds := Thresholds.ofJson_toJson fun x member =>
    recovered x (List.mem_append_right _ member)
  have distinct : ["indicators", "thresholds"].Nodup := by decide
  refine Tree.record_ofList (s := s) distinct ?_ rfl
  refine (Json.foldlM_known rfl (bind_of_ok indicators _)).trans ?_
  exact Json.foldlM_known rfl (bind_of_ok thresholds _)

/-! ### All types of data -/

/-- The types of data that are kept in JSON. -/
inductive DataType where
  | time
  | bar
  | bands
  | convergence
  | annotated
  | hit
  | verdict
  | indicatorSettings
  | thresholds
  | settings
deriving Repr, DecidableEq

namespace DataType

/-- The values of a type. -/
def Value : DataType → Type
  | time => BarTime
  | bar => Bar
  | bands => Indicator.Bands
  | convergence => Indicator.Convergence
  | annotated => Annotated
  | hit => Hit
  | verdict => Verdict
  | indicatorSettings => IndicatorSettings
  | thresholds => Thresholds
  | settings => Settings

/-- How values of a type are read from a document. -/
def read : (t : DataType) → Tree → Except Json.Error t.Value
  | time => BarTime.ofJson Json.maxDepth
  | bar => Bar.ofJson 0
  | bands => Indicator.Bands.ofJson
  | convergence => Indicator.Convergence.ofJson
  | annotated => Annotated.ofJson
  | hit => Hit.ofJson
  | verdict => Verdict.ofJson
  | indicatorSettings => IndicatorSettings.ofJson
  | thresholds => Thresholds.ofJson
  | settings => Settings.ofJson

/-- How values of a type are written. -/
def write : (t : DataType) → t.Value → Tree
  | time => BarTime.toJson
  | bar => Bar.toJson
  | bands => Indicator.Bands.toJson
  | convergence => Indicator.Convergence.toJson
  | annotated => Annotated.toJson
  | hit => Hit.toJson
  | verdict => Verdict.toJson
  | indicatorSettings => IndicatorSettings.toJson
  | thresholds => Thresholds.toJson
  | settings => Settings.toJson

/-- The doubles in a value. A verdict has none. -/
def floats : (t : DataType) → t.Value → List Float
  | time => BarTime.floats
  | bar => Bar.floats
  | bands => Indicator.Bands.floats
  | convergence => Indicator.Convergence.floats
  | annotated => Annotated.floats
  | hit => Hit.floats
  | verdict => fun _ => []
  | indicatorSettings => IndicatorSettings.floats
  | thresholds => Thresholds.floats
  | settings => Settings.floats

/-- All doubles in a value are finite and are read from JSON as they are written. -/
def IsRecovered (t : DataType) (v : t.Value) : Prop := ∀ x ∈ t.floats v, Recovered x

/-- A value is read from the tree that is written for it. -/
theorem read_write {t : DataType} {v : t.Value} (recovered : t.IsRecovered v) :
    t.read (t.write v) = .ok v := by
  cases t with
  | time => exact (BarTime.ofJson_toJson recovered Json.maxDepth).2
  | bar => exact Bar.ofJson_toJson recovered
  | bands => exact Indicator.Bands.ofJson_toJson recovered
  | convergence => exact Indicator.Convergence.ofJson_toJson recovered
  | annotated => exact Annotated.ofJson_toJson recovered
  | hit => exact Hit.ofJson_toJson recovered
  | verdict => exact Verdict.ofJson_toJson v
  | indicatorSettings => exact IndicatorSettings.ofJson_toJson recovered
  | thresholds => exact Thresholds.ofJson_toJson recovered
  | settings => exact Settings.ofJson_toJson recovered

/-- What is written can be printed. -/
theorem isWhole_write (t : DataType) (v : t.Value) : (t.write v).IsWhole := by
  cases t with
  | time => exact BarTime.isWhole_toJson v
  | bar => exact Bar.isWhole_toJson v
  | bands => exact Indicator.Bands.isWhole_toJson v
  | convergence => exact Indicator.Convergence.isWhole_toJson v
  | annotated => exact Annotated.isWhole_toJson v
  | hit => exact Hit.isWhole_toJson v
  | verdict => exact Verdict.isWhole_toJson v
  | indicatorSettings => exact IndicatorSettings.isWhole_toJson v
  | thresholds => exact Thresholds.isWhole_toJson v
  | settings => exact Settings.isWhole_toJson v

/-- The value of a text. -/
def parse (t : DataType) (text : List Char) : Except Json.Error t.Value :=
  (Json.Reader.document (Glyph.ofChars text)).decode t.read

/-- Reads a text and prints its value. -/
def reprint (t : DataType) (layout : Json.Layout) (text : List Char) :
    Except Json.Error (List Char) :=
  (t.parse text).map fun v => layout.print (t.write v)

/-- A value is read from its text. -/
theorem parse_print {t : DataType} {v : t.Value} (recovered : t.IsRecovered v)
    (layout : Json.Layout) : t.parse (layout.print (t.write v)) = .ok v := by
  rw [parse, Json.Layout.document_print layout (t.isWhole_write v)]
  refine (bind_of_ok (read_write recovered) _).trans ?_
  rfl

end DataType

/-- JSON undoes itself over all types of data. A value all of whose doubles are finite and are read
as they are written is read back from its text, on one line or laid out, as the very same value: a
time in the same variant, what is absent absent, what is nought there, and a date at the same
instant. So reading and printing a text of such a value a second time changes nothing any more. -/
theorem json_undoes_itself (t : DataType) (layout : Json.Layout) :
    (∀ v : t.Value, t.IsRecovered v → t.parse (layout.print (t.write v)) = .ok v) ∧
      ∀ text printed, t.reprint layout text = .ok printed →
        (∀ v, t.parse text = .ok v → t.IsRecovered v) → t.reprint layout printed = .ok printed := by
  refine ⟨fun v recovered => DataType.parse_print recovered layout, ?_⟩
  intro text printed reprinted recovered
  unfold DataType.reprint at reprinted
  cases parsed : t.parse text with
  | error e =>
      rw [parsed] at reprinted
      cases reprinted
  | ok v =>
      rw [parsed] at reprinted
      obtain rfl := Except.ok.inj reprinted
      rw [DataType.reprint, DataType.parse_print (recovered v parsed)]
      rfl

/-- An annotated bar with numbers of every shape, some fields of which are absent and some nought,
is read back from its pages. A time with spaces around it and an exponent is printed plainly, and
then always so. -/
theorem json_undoes_itself_mixed :
    let a : Annotated :=
      { bar := ⟨.fractional 1.5, 0.1, -0.0, 1e21, 5e-324, some 0⟩
        date := Time.Instant.ofUnix? (-1) 500000000
        sma := none, emaFast := some (-0.0), emaSlow := none, rsi := some 100
        bollinger := some ⟨3, 2.5, 2⟩, macd := none }
    DataType.annotated.parse (Json.Layout.pretty.print a.toJson) = .ok a ∧
      DataType.time.reprint .compact " 15e-1\n".toList = .ok "1.5".toList ∧
      DataType.time.reprint .compact "1.5".toList = .ok "1.5".toList := by
  intro a
  have plain : DataType.time.reprint .compact " 15e-1\n".toList = .ok "1.5".toList := by
    decide +kernel
  refine ⟨(json_undoes_itself .annotated .pretty).1 a ?_, plain, ?_⟩
  · have all : (a.floats.all fun x => decide (Recovered x)) = true := by decide +kernel
    exact fun x member => of_decide_eq_true (List.all_eq_true.mp all x member)
  · refine (json_undoes_itself .time .compact).2 _ _ plain fun v parsed => ?_
    have read : (Json.Reader.document (Glyph.ofChars " 15e-1\n".toList)).decode
        (BarTime.ofJson Json.maxDepth) = .ok (.fractional 1.5) := by
      decide +kernel
    obtain rfl := Except.ok.inj (parsed.symm.trans read)
    intro x member
    obtain rfl := List.mem_singleton.mp member
    decide +kernel

end PriceSignals
