/-
Module: PriceSignals.Proofs.JsonPrinting
Purpose: What is printed of a JSON value, on one line or laid out, is read as that value.
Main exports:
  Tree.IsWhole, Items.IsWhole, Members.IsWhole, Tree.spelled_print, Tree.spelled_layOut,
  Items.isWhole_ofList, Members.isWhole_ofList, Layout, Layout.document_print,
  Tree.skipFault?_of_isWhole
-/
import PriceSignals.Json.Decode
import PriceSignals.Proofs.JsonText

namespace PriceSignals.Json

/-! ### Whole values -/

mutual

/-- A value that JSON can write: nothing of it is cut off, its strings have characters only, and its
numbers have the form of JSON. -/
def Tree.IsWhole : Tree → Prop
  | .null => True
  | .boolean _ => True
  | .number l => l.IsJson
  | .string q => ∃ chars, q = Quoted.ofChars chars
  | .array is => is.IsWhole
  | .object ms => ms.IsWhole
  | .broken _ => False

def Items.IsWhole : Items → Prop
  | .closed => True
  | .cut _ => False
  | .item v rest => v.IsWhole ∧ rest.IsWhole

def Members.IsWhole : Members → Prop
  | .closed => True
  | .cut _ => False
  | .member key v rest =>
    (∃ name, key = .string (Quoted.ofChars name)) ∧ v.IsWhole ∧ rest.IsWhole

end

theorem Tree.isWhole_ofString (s : String) : (Tree.ofString s).IsWhole := ⟨s.toList, rfl⟩

theorem Items.isWhole_ofList {vs : List Tree} (whole : ∀ v ∈ vs, v.IsWhole) :
    (Items.ofList vs).IsWhole := by
  induction vs with
  | nil => trivial
  | cons v vs ih =>
      exact ⟨whole v List.mem_cons_self, ih fun w member => whole w (List.mem_cons_of_mem v member)⟩

theorem Members.isWhole_ofList {ms : List (String × Tree)} (whole : ∀ m ∈ ms, m.2.IsWhole) :
    (Members.ofList ms).IsWhole := by
  induction ms with
  | nil => trivial
  | cons m ms ih =>
      refine ⟨⟨m.1.toList, rfl⟩, whole m List.mem_cons_self, ?_⟩
      exact ih fun other member => whole other (List.mem_cons_of_mem m member)

/-! ### On one line -/

theorem isGap_nil : IsGap [] := nofun

/-- A comma, unless it is the first item or member, and blanks. -/
theorem isLead_comma (first : Bool) {gap : List Char} (blank : IsGap gap) :
    IsLead first ((if first then [] else [',']) ++ gap) := by
  cases first with
  | true => exact .first blank
  | false => exact .next isGap_nil blank

mutual

/-- What is printed on one line spells the value. -/
theorem Tree.spelled_print : (v : Tree) → v.IsWhole → v.Spelled v.print
  | .null, _ => rfl
  | .boolean _, _ => rfl
  | .number _, json => ⟨json, rfl⟩
  | .string _, ⟨chars, whole⟩ => ⟨chars, whole, rfl⟩
  | .array is, whole => ⟨_, is.spelled_print true whole, rfl⟩
  | .object ms, whole => ⟨_, ms.spelled_print true whole, rfl⟩

theorem Items.spelled_print (first : Bool) : (is : Items) → is.IsWhole →
    is.Spelled first (is.print first)
  | .closed, _ => ⟨[], isGap_nil, rfl⟩
  | .item v rest, ⟨value, others⟩ => by
      refine ⟨_, v.print, rest.print false, isLead_comma first isGap_nil, v.spelled_print value,
        rest.spelled_print false others, ?_⟩
      simp only [Items.print, List.append_nil, List.append_assoc]

theorem Members.spelled_print (first : Bool) : (ms : Members) → ms.IsWhole →
    ms.Spelled first (ms.print first)
  | .closed, _ => ⟨[], isGap_nil, rfl⟩
  | .member key v rest, ⟨⟨name, named⟩, value, others⟩ => by
      refine ⟨_, name, [], [], v.print, rest.print false, isLead_comma first isGap_nil, named,
        isGap_nil, isGap_nil, v.spelled_print value, rest.spelled_print false others, ?_⟩
      rw [named]
      simp only [Members.print, Tree.print, List.append_nil, List.nil_append, List.append_assoc,
        List.cons_append]

end

/-! ### Laid out -/

theorem isGap_newLine (depth : Nat) : IsGap (newLine depth) := by
  intro c member
  rcases List.mem_cons.mp member with rfl | blank
  · decide
  · rw [List.eq_of_mem_replicate blank]
    decide

mutual

/-- What is laid out spells the value. -/
theorem Tree.spelled_layOut (depth : Nat) : (v : Tree) → v.IsWhole → v.Spelled (v.layOut depth)
  | .null, _ => rfl
  | .boolean _, _ => rfl
  | .number _, json => ⟨json, rfl⟩
  | .string _, ⟨chars, whole⟩ => ⟨chars, whole, rfl⟩
  | .array .closed, _ => ⟨_, ⟨[], isGap_nil, rfl⟩, rfl⟩
  | .array (.item v rest), whole => ⟨_, (Items.item v rest).spelled_layOut depth true whole, rfl⟩
  | .object .closed, _ => ⟨_, ⟨[], isGap_nil, rfl⟩, rfl⟩
  | .object (.member key v rest), whole =>
      ⟨_, (Members.member key v rest).spelled_layOut depth true whole, rfl⟩

theorem Items.spelled_layOut (depth : Nat) (first : Bool) : (is : Items) → is.IsWhole →
    is.Spelled first (is.layOut depth first)
  | .closed, _ => ⟨newLine depth, isGap_newLine depth, rfl⟩
  | .item v rest, ⟨value, others⟩ => by
      refine ⟨_, v.layOut (depth + 1), rest.layOut depth false,
        isLead_comma first (isGap_newLine (depth + 1)), v.spelled_layOut (depth + 1) value,
        rest.spelled_layOut depth false others, ?_⟩
      simp only [Items.layOut, List.append_assoc]

theorem Members.spelled_layOut (depth : Nat) (first : Bool) : (ms : Members) → ms.IsWhole →
    ms.Spelled first (ms.layOut depth first)
  | .closed, _ => ⟨newLine depth, isGap_newLine depth, rfl⟩
  | .member key v rest, ⟨⟨name, named⟩, value, others⟩ => by
      have blank : IsGap [' '] := by
        intro c member
        obtain rfl := List.mem_singleton.mp member
        decide
      refine ⟨_, name, [], [' '], v.layOut (depth + 1), rest.layOut depth false,
        isLead_comma first (isGap_newLine (depth + 1)), named, isGap_nil, blank,
        v.spelled_layOut (depth + 1) value, rest.spelled_layOut depth false others, ?_⟩
      rw [named]
      simp only [Members.layOut, Tree.print, List.nil_append, List.append_assoc, List.cons_append]

end

/-- The two ways of printing a value. -/
inductive Layout where
  | compact
  | pretty
deriving Repr, DecidableEq

/-- The text of a value. -/
def Layout.print : Layout → Tree → List Char
  | compact, v => v.print
  | pretty, v => v.layOut 0

theorem Layout.spelled_print (layout : Layout) {v : Tree} (whole : v.IsWhole) :
    v.Spelled (layout.print v) := by
  cases layout with
  | compact => exact v.spelled_print whole
  | pretty => exact v.spelled_layOut 0 whole

/-- The document of a printed value is that value. -/
theorem Layout.document_print (layout : Layout) {v : Tree} (whole : v.IsWhole) :
    Reader.document (Glyph.ofChars (layout.print v)) = { root := v, trailing := false } := by
  have read := Reader.document_spelled (layout.spelled_print whole) isGap_nil isGap_nil
  rwa [List.nil_append, List.append_nil] at read

/-! ### Passing over -/

mutual

/-- A whole value can be passed over. -/
theorem Tree.skipFault?_of_isWhole : (v : Tree) → v.IsWhole → v.skipFault? = none
  | .null, _ => rfl
  | .boolean _, _ => rfl
  | .number _, _ => rfl
  | .string _, ⟨_, whole⟩ => by
      rw [whole]
      rfl
  | .array is, whole => is.skipFault?_of_isWhole whole
  | .object ms, whole => ms.skipFault?_of_isWhole whole

theorem Items.skipFault?_of_isWhole : (is : Items) → is.IsWhole → is.skipFault? = none
  | .closed, _ => rfl
  | .item v rest, ⟨value, others⟩ => by
      rw [Items.skipFault?, v.skipFault?_of_isWhole value]
      exact rest.skipFault?_of_isWhole others

theorem Members.skipFault?_of_isWhole : (ms : Members) → ms.IsWhole → ms.skipFault? = none
  | .closed, _ => rfl
  | .member _ v rest, ⟨⟨name, named⟩, value, others⟩ => by
      rw [named]
      unfold Members.skipFault?
      have skipped := v.skipFault?_of_isWhole value
      simp only [Quoted.ofChars, skipped]
      exact rest.skipFault?_of_isWhole others

end

end PriceSignals.Json
