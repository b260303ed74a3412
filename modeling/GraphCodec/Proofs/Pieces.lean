import Mathlib.Tactic.SplitIfs
import GraphCodec.Codec.Printer

/-!
# References of expressions

The expression of a codec is a sequence of pieces: literal text, and references, which are the
identifiers of named codecs. `Codec.pieces` splits an expression into these, and `join_pieces`
concatenates them again. `Prints` says which codecs an expression refers to, at any depth.
-/

set_option autoImplicit false

namespace GraphCodec

/-- A piece of an expression. -/
inductive Piece where
  | plain (text : String)
  /-- The identifier of a named codec. -/
  | reference (codec : Codec)

namespace Piece

def text : Piece → String
  | plain t => t
  | reference c => c.name

/-- The concatenation of pieces. -/
def join (ps : List Piece) : String := String.join (ps.map text)

@[simp] theorem join_nil : join [] = "" := by simp [join]

@[simp] theorem join_cons (p : Piece) (ps : List Piece) : join (p :: ps) = p.text ++ join ps := by
  simp [join]

@[simp] theorem join_append (ps qs : List Piece) : join (ps ++ qs) = join ps ++ join qs := by
  simp [join]

/-- Operands with a separator between them. -/
def separated (sep : String) : List (List Piece) → List Piece
  | [] => []
  | [p] => p
  | p :: q :: rest => p ++ plain sep :: separated sep (q :: rest)

/-- Separated operands in brackets. -/
def enclosed (opening sep closing : String) (parts : List (List Piece)) : List Piece :=
  plain opening :: (separated sep parts ++ [plain closing])

def intersection (members : List (List Piece)) : List Piece :=
  enclosed "t.intersection([" ", " "])" members

/-- The pieces of `groupedText`. -/
def grouped (members : List (List Piece)) : List Piece :=
  match intersectionGroups members with
  | [group] => intersection group
  | groups => intersection (groups.map intersection)

def option : Mode → List Piece → List Piece
  | .output, item => enclosed "optionFromNullable(" "" ")" [item]
  | .input, item => enclosed "t.union([t.null, " "" "])" [item]

theorem join_separated (sep : String) (parts : List (List Piece)) :
    join (separated sep parts) = String.intercalate sep (parts.map join) := by
  induction parts with
  | nil => simp [separated]
  | cons p rest ih =>
      cases rest with
      | nil => simp [separated]
      | cons q rest =>
          rw [separated, join_append, join_cons, ih]
          simp [text, String.append_assoc]

theorem join_enclosed (opening sep closing : String) (parts : List (List Piece)) :
    join (enclosed opening sep closing parts)
      = opening ++ String.intercalate sep (parts.map join) ++ closing := by
  simp [enclosed, join_separated, text, String.append_assoc]

end Piece

/-! ## Groups -/

section

variable {α β : Type}

theorem chunks_map (f : α → β) (size : Nat) (items : List α) :
    chunks size (items.map f) = (chunks size items).map (List.map f) := by
  fun_induction chunks size items with
  | case1 items h ih =>
      rw [chunks, if_pos (by simpa using h), List.map_cons, ← ih]
      simp
  | case2 items h =>
      rw [chunks, if_neg (by simpa using h)]
      rfl

theorem intersectionGroups_map (f : α → β) (types : List α) :
    intersectionGroups (types.map f) = (intersectionGroups types).map (List.map f) := by
  unfold intersectionGroups
  simp only [List.length_map, chunks_map]
  split_ifs <;> rfl

theorem flatten_chunks {size : Nat} (h : 0 < size) (items : List α) :
    (chunks size items).flatten = items := by
  fun_induction chunks size items with
  | case1 items hItems ih => rw [List.flatten_cons, ih, List.take_append_drop]
  | case2 items hItems =>
      by_cases hNil : items = []
      · simp [hNil]
      · exact absurd ⟨h, hNil⟩ hItems

theorem flatten_intersectionGroups (types : List α) :
    (intersectionGroups types).flatten = types := by
  unfold intersectionGroups
  split_ifs
  · simp
  · exact flatten_chunks (by decide) types
  · exact flatten_chunks (by decide) types

end

/-! ## Pieces of codecs -/

namespace Codec

/-- The pieces of `reference`. -/
def mention (c : Codec) (pieces : List Piece) : List Piece :=
  if c.name = "" then pieces else [.reference c]

mutual

/-- The pieces of `text`. -/
def pieces (mode : Mode) : Codec → List Piece
  | primitive k => [.plain k.text]
  | scalar _ => [.plain "t.any"]
  | enum _ cases => [.plain (enumText cases)]
  | literal v => [.plain (literalText v)]
  | object ps | input _ ps | query _ ps | mutation _ ps =>
      Piece.enclosed "t.type(\x7b " ",\n" "\x7d)" (propPieces mode ps)
  | union ts => Piece.enclosed "t.union([" ", " "])" (listPieces mode ts)
  | named n (object ps) =>
      Piece.enclosed "t.type(\x7b \n" ",\n" "\n\x7d)"
        ([.plain ("__typename: " ++ literalText n)] :: propPieces mode ps)
  | named _ body => pieces mode body
  | array c => Piece.enclosed "t.array(" "" ")" [mention c (pieces mode c)]
  | option c => Piece.option mode (mention c (pieces mode c))
  | intersection ts => Piece.grouped (listPieces mode ts)
  | pick t fs => [.plain (pickText t fs)]
  | unknown => []

def listPieces (mode : Mode) : List Codec → List (List Piece)
  | [] => []
  | c :: cs => mention c (pieces mode c) :: listPieces mode cs

def propPieces (mode : Mode) : List (String × Codec) → List (List Piece)
  | [] => []
  | (k, c) :: ps => (.plain (k ++ ": ") :: mention c (pieces mode c)) :: propPieces mode ps

end

/-- The pieces of an operand concatenate to its text. -/
theorem join_mention (c : Codec) {ps : List Piece} {t : String} (h : Piece.join ps = t) :
    Piece.join (mention c ps) = reference c t := by
  unfold mention reference
  split_ifs with hName
  · exact h
  · simp [Piece.text]

theorem join_grouped (members : List (List Piece)) :
    Piece.join (Piece.grouped members) = groupedText (members.map Piece.join) := by
  have hFlat : ∀ group : List (List Piece),
      Piece.join (Piece.intersection group) = intersectionText (group.map Piece.join) :=
    fun group => Piece.join_enclosed _ _ _ group
  unfold Piece.grouped groupedText
  rw [intersectionGroups_map]
  rcases intersectionGroups members with _ | ⟨group, _ | ⟨second, rest⟩⟩
  · exact hFlat []
  · exact hFlat group
  · simp [hFlat, Function.comp_def]

theorem join_option (mode : Mode) (ps : List Piece) :
    Piece.join (Piece.option mode ps) = optionText mode (Piece.join ps) := by
  cases mode with
  | output => exact Piece.join_enclosed "optionFromNullable(" "" ")" [ps]
  | input => exact Piece.join_enclosed "t.union([t.null, " "" "])" [ps]

theorem join_object {mode : Mode} {ps : List (String × Codec)}
    (h : (propPieces mode ps).map Piece.join = propTexts mode ps) :
    Piece.join (Piece.enclosed "t.type(\x7b " ",\n" "\x7d)" (propPieces mode ps))
      = objectText (propTexts mode ps) := by
  rw [Piece.join_enclosed, h, objectText]

mutual

/-- **The pieces of a codec concatenate to its expression.** -/
theorem join_pieces (mode : Mode) (c : Codec) : Piece.join (c.pieces mode) = c.text mode := by
  cases c with
  | object ps => rw [pieces, text, join_object (map_join_propPieces mode ps)]
  | input n ps => rw [pieces, text, join_object (map_join_propPieces mode ps)]
  | query n ps => rw [pieces, text, join_object (map_join_propPieces mode ps)]
  | mutation n ps => rw [pieces, text, join_object (map_join_propPieces mode ps)]
  | union ts =>
      rw [pieces, Piece.join_enclosed, map_join_listPieces mode ts, text, unionText]
  | named n body =>
      have hBody := join_pieces mode body
      cases body with
      | object ps =>
          rw [pieces, Piece.join_enclosed, List.map_cons, map_join_propPieces mode ps, text,
            namedObjectText]
          simp [Piece.text]
      | _ => simpa only [pieces, text] using hBody
  | array c =>
      rw [pieces, Piece.join_enclosed, List.map_singleton,
        join_mention c (join_pieces mode c), String.intercalate_singleton, text]
  | option c => rw [pieces, join_option, join_mention c (join_pieces mode c), text]
  | intersection ts => rw [pieces, join_grouped, map_join_listPieces mode ts, text]
  | _ => simp [pieces, text, Piece.text]

theorem map_join_listPieces (mode : Mode) (cs : List Codec) :
    (listPieces mode cs).map Piece.join = texts mode cs := by
  cases cs with
  | nil => rfl
  | cons c cs =>
      rw [listPieces, texts, List.map_cons, join_mention c (join_pieces mode c),
        map_join_listPieces mode cs]

theorem map_join_propPieces (mode : Mode) (ps : List (String × Codec)) :
    (propPieces mode ps).map Piece.join = propTexts mode ps := by
  cases ps with
  | nil => rfl
  | cons p ps =>
      rw [propPieces, propTexts, List.map_cons, Piece.join_cons,
        join_mention p.2 (join_pieces mode p.2), map_join_propPieces mode ps]
      rfl

end

end Codec

/-! ## References -/

namespace Piece

variable {r : Codec}

@[simp] theorem reference_ne_plain (t : String) : reference r ≠ plain t := by
  intro h
  cases h

theorem reference_mem_separated {sep : String} {parts : List (List Piece)} :
    reference r ∈ separated sep parts ↔ ∃ part ∈ parts, reference r ∈ part := by
  induction parts with
  | nil => simp [separated]
  | cons p rest ih =>
      cases rest with
      | nil => simp [separated]
      | cons q rest =>
          rw [separated, List.mem_append, List.mem_cons, ih]
          simp

@[simp] theorem reference_mem_enclosed {opening sep closing : String}
    {parts : List (List Piece)} :
    reference r ∈ enclosed opening sep closing parts ↔ ∃ part ∈ parts, reference r ∈ part := by
  rw [enclosed, List.mem_cons, List.mem_append, reference_mem_separated]
  simp

@[simp] theorem reference_mem_option {mode : Mode} {item : List Piece} :
    reference r ∈ option mode item ↔ reference r ∈ item := by
  cases mode <;> simp [option]

/-- Grouping keeps the references. -/
@[simp] theorem reference_mem_grouped {members : List (List Piece)} :
    reference r ∈ grouped members ↔ ∃ part ∈ members, reference r ∈ part := by
  have hFlatten := flatten_intersectionGroups members
  unfold grouped
  split
  · rename_i group hGroups
    rw [hGroups, List.flatten_singleton] at hFlatten
    rw [intersection, reference_mem_enclosed, hFlatten]
  · rw [intersection, reference_mem_enclosed]
    constructor
    · rintro ⟨part, hPart, hMem⟩
      obtain ⟨group, hGroup, rfl⟩ := List.mem_map.mp hPart
      obtain ⟨member, hMember, hRef⟩ := reference_mem_enclosed.mp hMem
      refine ⟨member, ?_, hRef⟩
      rw [← hFlatten]
      exact List.mem_flatten.mpr ⟨group, hGroup, hMember⟩
    · rintro ⟨member, hMember, hRef⟩
      rw [← hFlatten] at hMember
      obtain ⟨group, hGroup, hIn⟩ := List.mem_flatten.mp hMember
      exact ⟨_, List.mem_map.mpr ⟨group, hGroup, rfl⟩,
        reference_mem_enclosed.mpr ⟨member, hIn, hRef⟩⟩

end Piece

namespace Codec

/-- **The references of an expression.** The expression of `c` refers to `r` by its identifier, at
any depth. -/
def Prints (mode : Mode) (c r : Codec) : Prop := .reference r ∈ c.pieces mode

/-- The operand `c` refers to `r`. -/
def Refers (mode : Mode) (c r : Codec) : Prop := .reference r ∈ mention c (c.pieces mode)

variable {mode : Mode} {c r : Codec}

/-- A named operand is a reference, and an anonymous one has the references of its expression. -/
theorem refers_iff :
    Refers mode c r ↔ if c.name = "" then Prints mode c r else r = c := by
  unfold Refers mention
  split_ifs with hName
  · rfl
  · simp

theorem Refers.prints (h : Refers mode c r) (hName : c.name = "") : Prints mode c r := by
  simpa [refers_iff, hName] using h

theorem exists_mem_listPieces {cs : List Codec} :
    (∃ part ∈ listPieces mode cs, .reference r ∈ part) ↔ ∃ c ∈ cs, Refers mode c r := by
  induction cs with
  | nil => simp [listPieces]
  | cons c cs ih => simp [listPieces, Refers, ih]

theorem exists_mem_propPieces {ps : List (String × Codec)} :
    (∃ part ∈ propPieces mode ps, .reference r ∈ part) ↔ ∃ p ∈ ps, Refers mode p.2 r := by
  induction ps with
  | nil => simp [propPieces]
  | cons p ps ih => simp [propPieces, Refers, ih]

/-- The properties of the `t.type` that a codec is printed as. -/
def listed? : Codec → Option (List (String × Codec))
  | object ps | input _ ps | query _ ps | mutation _ ps | named _ (object ps) => some ps
  | _ => none

/-- The references of a `t.type` are those of its properties. -/
theorem prints_of_listed {ps : List (String × Codec)} (hc : c.listed? = some ps) :
    Prints mode c r ↔ ∃ p ∈ ps, Refers mode p.2 r := by
  rw [← exists_mem_propPieces]
  unfold listed? at hc
  split at hc <;> cases hc <;> simp [Prints, pieces]

theorem prints_union {ts : List Codec} :
    Prints mode (.union ts) r ↔ ∃ t ∈ ts, Refers mode t r := by
  rw [← exists_mem_listPieces, Prints, pieces, Piece.reference_mem_enclosed]

theorem prints_intersection {ts : List Codec} :
    Prints mode (.intersection ts) r ↔ ∃ t ∈ ts, Refers mode t r := by
  rw [← exists_mem_listPieces, Prints, pieces, Piece.reference_mem_grouped]

end Codec

end GraphCodec
