import GraphCodec.Proofs.Picks

/-!
# Names are coherent

Definitions may share a name. The one that is compiled first gets the entry in the memo, be it
because it comes first or because something refers to the name, and the others are never compiled:
their positions in the schema have the codec of the entry. An entry never changes, and it was made
from older entries only. So a named node of a type is the codec that the schema has under its name
(`Schema.compile_coherent`), and an identifier denotes the same codec everywhere.
-/

set_option autoImplicit false

namespace GraphCodec

open Codec

/-! ## Named nodes -/

/-- The nodes that a type reference adds to a codec are arrays, options of arrays, and an option of
the codec. -/
theorem Signature.part_cases (t : Signature) {c p : Codec} (hp : p ∈ (t.wrap c).parts) :
    p ∈ c.parts ∨ p = .option c ∨ ∃ d, p = .array d ∨ p = .option (.array d) := by
  induction t with
  | named n nonNull =>
      cases nonNull with
      | true => exact Or.inl hp
      | false =>
          rcases List.mem_cons.mp hp with hSelf | hp
          · exact Or.inr (Or.inl hSelf)
          · exact Or.inl hp
  | list t nonNull ih =>
      have hList : p ∈ (Codec.array (t.wrap c)).parts →
          p ∈ c.parts ∨ p = .option c ∨ ∃ d, p = .array d ∨ p = .option (.array d) := by
        intro h
        rcases List.mem_cons.mp h with hSelf | h
        · exact Or.inr (Or.inr ⟨_, Or.inl hSelf⟩)
        · exact ih h
      cases nonNull with
      | true => exact hList hp
      | false =>
          rcases List.mem_cons.mp hp with hSelf | hp
          · exact Or.inr (Or.inr ⟨_, Or.inr hSelf⟩)
          · exact hList hp

/-- List and nullable wrappers are anonymous, so the named nodes are those of the wrapped codec. -/
theorem Signature.mem_parts_of_wrap (t : Signature) {c p : Codec} (hNamed : p.isNamed = true)
    (hp : p ∈ (t.wrap c).parts) : p ∈ c.parts := by
  rcases t.part_cases hp with hp | rfl | ⟨d, rfl | rfl⟩
  · exact hp
  · cases hNamed
  · cases hNamed
  · cases hNamed

/-- The nodes of the codec of an object type. -/
theorem mem_parts_objectCodec {name : String} {props : List (String × Codec)} {p : Codec}
    (hp : p ∈ (objectCodec name props).parts) :
    p = objectCodec name props ∨ p = .object props ∨ ∃ q ∈ props, p ∈ q.2.parts := by
  unfold objectCodec at hp ⊢
  split_ifs at hp ⊢ with hQuery hMutation
  · rw [parts_query] at hp
    exact (List.mem_cons.mp hp).imp_right fun h => Or.inr (List.mem_flatMap.mp h)
  · rw [parts_mutation] at hp
    exact (List.mem_cons.mp hp).imp_right fun h => Or.inr (List.mem_flatMap.mp h)
  · rw [parts_named, parts_object] at hp
    refine (List.mem_cons.mp hp).imp_right fun h => ?_
    exact (List.mem_cons.mp h).imp_right List.mem_flatMap.mp

/-- The nodes of the codec of a definition. -/
theorem HasCodec.part_cases {memo : Memo} {d : Definition} {c p : Codec} (h : HasCodec memo d c)
    (hp : p ∈ c.parts) :
    p = c ∨ p = .object c.props ∨ (∃ members, p = .union members) ∨
      (∃ q ∈ c.props, p ∈ q.2.parts) ∨ ∃ n b, memo.lookup n = some b ∧ p ∈ b.parts := by
  cases h with
  | object h =>
      rw [objectCodec_props]
      rcases mem_parts_objectCodec hp with hSelf | hBody | hProp
      · exact Or.inl hSelf
      · exact Or.inr (Or.inl hBody)
      · exact Or.inr (Or.inr (Or.inr (Or.inl hProp)))
  | input h =>
      rw [parts_input] at hp
      rcases List.mem_cons.mp hp with hSelf | hProp
      · exact Or.inl hSelf
      · exact Or.inr (Or.inr (Or.inr (Or.inl (List.mem_flatMap.mp hProp))))
  | union h =>
      rw [parts_named, parts_union] at hp
      rcases List.mem_cons.mp hp with hSelf | hp
      · exact Or.inl hSelf
      rcases List.mem_cons.mp hp with hBody | hp
      · exact Or.inr (Or.inr (Or.inl ⟨_, hBody⟩))
      obtain ⟨b, hb, hPart⟩ := List.mem_flatMap.mp hp
      obtain ⟨n, -, hn⟩ := exists_left_of_forall₂ h hb
      exact Or.inr (Or.inr (Or.inr (Or.inr ⟨n, b, hn, hPart⟩)))
  | enum name values => exact Or.inl (List.mem_singleton.mp hp)
  | scalar name => exact Or.inl (List.mem_singleton.mp hp)

/-- **The named nodes below the codec of a definition come from the memo.** -/
theorem HasCodec.mem_parts {memo : Memo} {d : Definition} {c p : Codec} (h : HasCodec memo d c)
    (hNamed : p.isNamed = true) (hp : p ∈ c.parts) :
    p = c ∨ ∃ n b, memo.lookup n = some b ∧ p ∈ b.parts := by
  rcases h.part_cases hp with hSelf | rfl | ⟨members, rfl⟩ | ⟨⟨k, t⟩, hq, hPart⟩ | hMember
  · exact Or.inl hSelf
  · cases hNamed
  · cases hNamed
  · obtain ⟨sig, b, -, hb, rfl⟩ := h.mem_props hq
    have hInside := sig.mem_parts_of_wrap hNamed hPart
    rcases Memo.field?_eq_some.mp hb with ⟨kind, -, rfl⟩ | ⟨-, hb⟩
    · obtain rfl := List.mem_singleton.mp hInside
      cases hNamed
    · exact Or.inr ⟨sig.base, b, hb, hInside⟩
  · exact Or.inr hMember

/-- **A memo has an entry for every named node of its entries.** The nodes come from older entries,
and no later entry shadows them. -/
theorem Memo.Built.lookup_part {ds : List Definition} {memo : Memo} (h : memo.Built ds)
    {n : String} {c p : Codec} (hc : memo.lookup n = some c) (hNamed : p.isNamed = true)
    (hp : p ∈ c.parts) : memo.lookup p.name = some p := by
  induction h generalizing n c with
  | nil => cases hc
  | @cons memo d e h hd hNew he ih =>
      have hExt := Memo.extends_cons e hNew
      rw [List.lookup_cons] at hc
      by_cases hn : n = d.name
      · subst hn
        obtain rfl : e = c := by simpa using hc
        rcases he.mem_parts hNamed hp with rfl | ⟨k, b, hb, hPart⟩
        · rw [he.name_eq]
          simp
        · exact hExt _ _ (ih hb hPart)
      · have hn' : (n == d.name) = false := by simpa using hn
        rw [hn'] at hc
        exact hExt _ _ (ih hc hp)

/-! ## Schemas -/

theorem HasCodec.name?_eq {memo : Memo} {d : Definition} {c : Codec} (h : HasCodec memo d c) :
    c.name? = some d.name := by
  cases h with
  | @object name fields pairs h =>
      unfold objectCodec
      split_ifs <;> rfl
  | _ => rfl

/-- **The names of a schema are coherent.** A named codec, at any depth of any type, is the codec
that the schema has under its name; and the types are those of the definitions, in order and by
name, even where definitions share a name. -/
theorem Schema.compile_coherent {ds : List Definition} {schema : Schema}
    (h : Schema.compile ds = .ok schema) :
    (∀ c ∈ schema.types, ∀ p ∈ c.parts, p.isNamed = true → schema.get? p.name = some p) ∧
      List.Forall₂ (fun d c => c.name? = some d.name) ds schema.types := by
  obtain ⟨memo, hBuilt, hTypes⟩ := compile_built h
  have hClosed := closed_of_built hBuilt hTypes
  refine ⟨fun c hc p hp hNamed => ?_, hTypes.imp fun d c hc => ?_⟩
  · obtain ⟨n, hn⟩ := (mem_types_iff hBuilt hTypes).mp hc
    have hPart := hBuilt.lookup_part hn hNamed hp
    exact hClosed.get p ((mem_types_iff hBuilt hTypes).mpr ⟨p.name, hPart⟩)
  · obtain ⟨e, -, hName, hCodec⟩ := hBuilt.hasCodec hc
    rw [← hName]
    exact hCodec.name?_eq

namespace Library

/-- Two definitions of books. The shelf refers to the last one, whose codec takes the place of the
other. -/
def definitions : List Definition :=
  [⟨"Shelf", .object [⟨"books", .list (.named "Book" true) true⟩]⟩, ⟨"Book", .scalar⟩,
    ⟨"Book", .object [⟨"title", .named "String" true⟩]⟩]

def book : Codec := .named "Book" (.object [("title", .primitive .string)])

def schema : Schema := ⟨[.named "Shelf" (.object [("books", .array book)]), book, book]⟩

theorem schema_coherent :
    Schema.compile definitions = .ok schema ∧
      (∀ c ∈ schema.types, ∀ p ∈ c.parts, p.isNamed = true → schema.get? p.name = some p) ∧
      List.Forall₂ (fun d c => c.name? = some d.name) definitions schema.types := by
  have hSchema : Schema.compile definitions = .ok schema := by cbv
  exact ⟨hSchema, Schema.compile_coherent hSchema⟩

end Library

end GraphCodec
