import GraphCodec.Proofs.CodecReader
import GraphCodec.Proofs.Picks

/-!
# Expressions determine codecs up to outline

Different codecs can have the same expression: an identifier hides the definition of a named codec,
`t.number` is the codec of two built-in scalars, and an enum of a single value is printed as a
literal. `Codec.outline` is the information in the expression of a codec. That this is all of it is
shown by a parser: `CodecReader.read` parses the expression of every codec whose identifiers are
GraphQL `Name`s as the outline of the codec (`legible_text`), and parsing is unambiguous. So codecs
of one expression have one outline.
-/

set_option autoImplicit false

namespace GraphCodec

/-! ## Outlines -/

/-- The representative of the built-in scalars with the same `io-ts` codec. -/
def Primitive.shown : Primitive → Primitive
  | .id => .string
  | .float => .int
  | kind => kind

namespace Codec

/-- The identifiers and string literals of a node: its name, its enum values, its keys and its
picked fields. -/
def words : Codec → List String
  | scalar n | named n _ => [n]
  | enum n cases => n :: cases
  | literal v => [v]
  | object ps => Assoc.keys ps
  | input n ps | query n ps | mutation n ps => n :: Assoc.keys ps
  | pick t fs => t :: fs
  | _ => []

/-- Whether the identifiers and literals of a node are GraphQL `Name`s. An `unknown` node has no
expression. -/
def isSpelled : Codec → Bool
  | unknown => false
  | c => c.words.all Token.isName

/-- **A codec whose identifiers and literals are GraphQL `Name`s**, at every depth. -/
def Spelled (c : Codec) : Prop := ∀ p ∈ c.parts, p.isSpelled

instance (c : Codec) : Decidable c.Spelled :=
  inferInstanceAs (Decidable (∀ p ∈ c.parts, p.isSpelled))

/-- The outline of an operand: a reference for a named codec, whatever its definition is. -/
def mentioned (c outline : Codec) : Codec := if c.name = "" then outline else scalar c.name

mutual

/-- **The information in the expression of a codec.** The name and the kind of the codec itself are
lost, unless it is an object type, and so is the nesting of intersections. -/
def outline : Codec → Codec
  | primitive kind => primitive kind.shown
  | scalar _ => scalar ""
  | enum _ [] => union []
  | enum _ [case] => literal case
  | enum _ cases => enum "" cases
  | literal v => literal v
  | object ps | input _ ps | query _ ps | mutation _ ps => object (propOutlines ps)
  | union ts => union (outlines ts)
  | named n (object ps) => named n (object (propOutlines ps))
  | named _ body => outline body
  | array c => array (mentioned c (outline c))
  | option c => option (mentioned c (outline c))
  | intersection ts => intersection ((outlines ts).flatMap spread)
  | pick t fs => pick t fs
  | unknown => unknown

def outlines : List Codec → List Codec
  | [] => []
  | c :: cs => mentioned c (outline c) :: outlines cs

def propOutlines : List (String × Codec) → List (String × Codec)
  | [] => []
  | (k, c) :: ps => (k, mentioned c (outline c)) :: propOutlines ps

end

end Codec

/-! ## Groups of two lists -/

section

variable {α β : Type} {R : α → β → Prop} {as : List α} {bs : List β}

theorem forall₂_chunks (size : Nat) (h : List.Forall₂ R as bs) :
    List.Forall₂ (List.Forall₂ R) (chunks size as) (chunks size bs) := by
  have hNil : ∀ {as : List α} {bs : List β}, List.Forall₂ R as bs → (as ≠ [] ↔ bs ≠ []) := by
    intro as bs h
    cases h <;> simp
  fun_induction chunks size as generalizing bs with
  | case1 as hSome ih =>
      rw [chunks.eq_def size bs, if_pos ⟨hSome.1, (hNil h).mp hSome.2⟩]
      exact .cons (List.forall₂_take size h) (ih (List.forall₂_drop size h))
  | case2 as hNone =>
      rw [chunks, if_neg fun hSome => hNone ⟨hSome.1, (hNil h).mpr hSome.2⟩]
      exact .nil

theorem forall₂_intersectionGroups (h : List.Forall₂ R as bs) :
    List.Forall₂ (List.Forall₂ R) (intersectionGroups as) (intersectionGroups bs) := by
  unfold intersectionGroups
  rw [h.length_eq]
  split_ifs
  · exact .cons h .nil
  · exact forall₂_chunks _ h
  · exact forall₂_chunks _ h

end

/-! ## Parsed expressions

The fuel that the parser needs depends on the expression. More fuel does no harm. -/

namespace CodecReader

variable {α : Type}

/-- The parsers with enough fuel parse `t` as `a`. -/
def Settles (r : Nat → CodecReader α) (t : String) (a : α) : Prop :=
  ∃ n, ∀ depth, n ≤ depth → Takes (r depth) t a

theorem Settles.forall₂ {r : Nat → CodecReader α} {ts : List String} {as : List α}
    (h : List.Forall₂ (Settles r) ts as) :
    ∃ n, ∀ depth, n ≤ depth → List.Forall₂ (Takes (r depth)) ts as := by
  induction h with
  | nil => exact ⟨0, fun _ _ => .nil⟩
  | cons hHead hTail ih =>
      obtain ⟨m, hm⟩ := hHead
      obtain ⟨n, hn⟩ := ih
      refine ⟨max m n, fun depth hDepth => ?_⟩
      exact .cons (hm depth (by omega)) (hn depth (by omega))

/-- **The expression `t` is parsed as the codec `c`.** -/
def Legible (t : String) (c : Codec) : Prop := Settles read t c

/-- An expression is parsed as one codec only. -/
theorem Legible.unique {t : String} {c c' : Codec} (h : Legible t c) (h' : Legible t c') :
    c = c' := by
  obtain ⟨m, hm⟩ := h
  obtain ⟨n, hn⟩ := h'
  have hc := hm (max m n) (by omega) [] rfl
  have hc' := hn (max m n) (by omega) [] rfl
  exact congrArg Prod.fst (Option.some.inj (hc.symm.trans hc'))

/-- An expression is parsed by its leading tokens. -/
theorem legible_of_body (h : Head) {t : String} {c : Codec}
    (hBody : ∃ n, ∀ depth, n ≤ depth → Takes (body (read depth) h) t c) :
    Legible (h.text ++ t) c := by
  obtain ⟨n, hn⟩ := hBody
  refine ⟨n + 1, fun depth hDepth s hs => ?_⟩
  obtain ⟨depth, rfl⟩ : ∃ k, depth = k + 1 := ⟨depth - 1, by omega⟩
  rw [String.toList_append, List.append_assoc, read, run_orElse_none (run_reference_head h _),
    run_bind_some (run_head h _)]
  exact hn depth (by omega) s hs

/-- Leading tokens that need no more are an expression. -/
theorem legible_of_head (h : Head) {c : Codec} (hBody : ∀ r, body r h = pure c) :
    Legible h.text c := by
  have hAlone := legible_of_body h (t := "") ⟨0, fun depth _ s _ => by rw [hBody]; rfl⟩
  rwa [String.append_empty] at hAlone

/-- An identifier is parsed as a named codec. -/
theorem legible_name {n : String} (hn : Token.isName n = true) : Legible n (.scalar n) := by
  refine ⟨1, fun depth hDepth s hs => ?_⟩
  obtain ⟨depth, rfl⟩ : ∃ k, depth = k + 1 := ⟨depth - 1, by omega⟩
  exact run_orElse_some (run_reference hn hs)

section

variable {t n : String} {c : Codec} {ts : List String} {cs : List Codec}
  {ps : List (String × Codec)}

theorem legible_literal (hn : Token.isName n = true) :
    Legible (Codec.literalText n) (.literal n) := by
  rw [Codec.literalText, String.append_assoc]
  refine legible_of_body .literal ⟨0, fun depth _ s _ => ?_⟩
  rw [String.toList_append, List.append_assoc, body, run_bind_some (run_name hn rfl),
    run_bind_some (run_expect _ _)]
  rfl

theorem legible_array (h : Legible t c) : Legible ("t.array(" ++ t ++ ")") (.array c) := by
  obtain ⟨n, hn⟩ := h
  rw [String.append_assoc]
  refine legible_of_body .array ⟨n, fun depth hDepth s _ => ?_⟩
  rw [String.toList_append, List.append_assoc, body, run_bind_some (hn depth hDepth _ rfl),
    run_bind_some (run_expect _ _)]
  rfl

/-- A nullable type is parsed back in both modes. -/
theorem legible_option (mode : Mode) (h : Legible t c) :
    Legible (Codec.optionText mode t) (.option c) := by
  obtain ⟨n, hn⟩ := h
  cases mode with
  | output =>
      have hText : Codec.optionText .output t = "optionFromNullable(" ++ (t ++ ")") :=
        String.append_assoc
      rw [hText]
      refine legible_of_body .option ⟨n, fun depth hDepth s _ => ?_⟩
      rw [String.toList_append, List.append_assoc, body, run_bind_some (hn depth hDepth _ rfl),
        run_bind_some (run_expect _ _)]
      rfl
  | input =>
      have hText : Codec.optionText .input t = "t.union([" ++ ("t.null, " ++ (t ++ "])")) := by
        have hOpening : "t.union([t.null, " = "t.union([" ++ "t.null, " := by decide
        change "t.union([t.null, " ++ t ++ "])" = _
        rw [hOpening, String.append_assoc, String.append_assoc]
      rw [hText]
      refine legible_of_body .union ⟨n, fun depth hDepth s _ => ?_⟩
      simp only [String.toList_append, List.append_assoc]
      -- a nullable input type is not parsed as a union: `t.null` is no member
      have hMembers : ∀ s, (listed ", " "])" (read depth)).run ("t.null, ".toList ++ s) = none := by
        intro s
        rw [listed, run_orElse_none (run_bind_none (run_read_null depth s))]
        rfl
      rw [body, run_orElse_none (run_bind_none (hMembers _))]
      refine run_orElse_some ?_
      rw [run_bind_some (run_expect _ _), run_bind_some (hn depth hDepth _ rfl),
        run_bind_some (run_expect _ _)]
      rfl

theorem legible_union (h : List.Forall₂ Legible ts cs) :
    Legible (Codec.unionText ts) (.union cs) := by
  obtain ⟨n, hn⟩ := Settles.forall₂ h
  rw [Codec.unionText, String.append_assoc]
  refine legible_of_body .union ⟨n, fun depth hDepth s _ => ?_⟩
  rw [String.toList_append, List.append_assoc, body]
  refine run_orElse_some ?_
  rw [run_bind_some (run_listed punctuation_members (hn depth hDepth) (run_read_closing depth) s)]
  rfl

theorem legible_intersection (h : List.Forall₂ Legible ts cs) :
    Legible (Codec.intersectionText ts) (.intersection (cs.flatMap Codec.spread)) := by
  obtain ⟨n, hn⟩ := Settles.forall₂ h
  have hText : Codec.intersectionText ts
      = "t.intersection([" ++ (String.intercalate ", " ts ++ "])") := String.append_assoc
  rw [hText]
  refine legible_of_body .intersection ⟨n, fun depth hDepth s _ => ?_⟩
  rw [String.toList_append, List.append_assoc, body,
    run_bind_some (run_listed punctuation_members (hn depth hDepth) (run_read_closing depth) s)]
  rfl

theorem legible_pick {fs : List String} (hn : Token.isName n = true)
    (hfs : ∀ f ∈ fs, Token.isName f = true) : Legible (Codec.pickText n fs) (.pick n fs) := by
  have hFields : List.Forall₂ (Takes quoted) (fs.map ("'" ++ · ++ "'")) fs := by
    rw [List.forall₂_map_left_iff, List.forall₂_same]
    exact fun f hf s _ => run_quoted (hfs f hf) s
  simp only [Codec.pickText, String.append_assoc]
  simp only [String.append_assoc] at hFields
  refine legible_of_body .pick ⟨0, fun depth _ s _ => ?_⟩
  simp only [String.toList_append, List.append_assoc]
  rw [body, run_bind_some (run_name hn rfl), run_bind_some (run_expect _ _),
    run_bind_some (run_listed punctuation_picked hFields (fun _ => rfl) s)]
  rfl

/-- Enum values are not parsed as the members of a union: there is no blank after the comma. -/
theorem run_members_case {v w : String} {depth : Nat}
    (hFirst : Takes (read depth) (Codec.literalText v) (.literal v)) (s : List Char) :
    (listed ", " "])" (read depth)).run
      ((Codec.literalText v).toList ++ (",".toList ++ ((Codec.literalText w).toList ++ s)))
        = none := by
  have hFurther : (further ", " "])" (read depth)).run
      (",".toList ++ ((Codec.literalText w).toList ++ s)) = none := by
    rw [toList_literalText]
    rfl
  rw [listed, run_orElse_none]
  · rw [toList_literalText]
    rfl
  · rw [run_bind_some (hFirst _ rfl), run_bind_none hFurther]

theorem legible_cases {v w : String} {vs : List String}
    (h : ∀ n ∈ v :: w :: vs, Token.isName n = true) :
    Legible (Codec.enumText (v :: w :: vs)) (.enum "" (v :: w :: vs)) := by
  have hCases : List.Forall₂ (Takes literal) ((v :: w :: vs).map Codec.literalText)
      (v :: w :: vs) := by
    rw [List.forall₂_map_left_iff, List.forall₂_same]
    exact fun n hn s _ => run_literal (h n hn) s
  obtain ⟨k, hFirst⟩ := legible_literal (h v (by simp))
  rw [Codec.enumText.eq_2 _ (by simp), String.append_assoc]
  refine legible_of_body .union ⟨k, fun depth hDepth s _ => ?_⟩
  have hList := run_listed punctuation_cases hCases (fun _ => rfl) s
  rw [String.toList_append, List.append_assoc, body]
  rw [List.map_cons, toList_intercalate_cons, List.append_assoc, List.map_cons, behind_cons]
    at hList ⊢
  have hNull : ∀ rest, (expect "t.null, ").run ((Codec.literalText v).toList ++ rest) = none := by
    intro rest
    rw [toList_literalText]
    rfl
  rw [run_orElse_none (run_bind_none (run_members_case (hFirst depth hDepth) _)),
    run_orElse_none (run_bind_none (hNull _)), run_bind_some hList]
  rfl

/-- A property is parsed back if its codec is. -/
theorem settles_property (hn : Token.isName n = true) (h : Legible t c) :
    Settles (fun depth => property (read depth)) (n ++ ": " ++ t) (n, c) := by
  obtain ⟨k, hk⟩ := h
  refine ⟨k, fun depth hDepth s hs => ?_⟩
  simp only [String.toList_append, List.append_assoc]
  rw [property, run_bind_some (run_name hn rfl), run_bind_some (run_expect _ _),
    run_bind_some (hk depth hDepth s hs)]
  rfl

theorem legible_object
    (h : List.Forall₂ (Settles fun depth => property (read depth)) ts ps) :
    Legible (Codec.objectText ts) (.object ps) := by
  obtain ⟨k, hk⟩ := Settles.forall₂ h
  rw [Codec.objectText, String.append_assoc]
  refine legible_of_body .type ⟨k, fun depth hDepth s _ => ?_⟩
  rw [String.toList_append, List.append_assoc, body]
  refine run_orElse_some ?_
  rw [run_bind_some (run_listed punctuation_fields (hk depth hDepth) (fun _ => rfl) s)]
  rfl

theorem legible_namedObject (hn : Token.isName n = true)
    (h : List.Forall₂ (Settles fun depth => property (read depth)) ts ps) :
    Legible (Codec.namedObjectText n ts) (.named n (.object ps)) := by
  obtain ⟨k, hk⟩ := Settles.forall₂ h
  have hOpening : "t.type(\x7b \n" = "t.type(\x7b " ++ "\n" := by decide
  rw [Codec.namedObjectText, hOpening, String.append_assoc, String.append_assoc]
  refine legible_of_body .type ⟨k, fun depth hDepth s _ => ?_⟩
  simp only [String.toList_append, toList_intercalate_cons, List.append_assoc]
  -- a property does not start with a line feed
  have hFields : ∀ rest,
      (listed ",\n" "\x7d)" (property (read depth))).run ("\n".toList ++ rest) = none :=
    fun _ => rfl
  rw [body, run_orElse_none (run_bind_none (hFields _)), run_bind_some (run_expect _ _),
    run_bind_some (run_expect _ _), run_bind_some (run_literal hn _),
    run_bind_some (run_further punctuation_lines (hk depth hDepth) s)]
  rfl

/-- Nested intersections are parsed back as one intersection. -/
theorem legible_grouped (h : List.Forall₂ Legible ts cs) :
    Legible (Codec.groupedText ts) (.intersection (cs.flatMap Codec.spread)) := by
  have hGroups := forall₂_intersectionGroups h
  have hNested : List.Forall₂ Legible ((intersectionGroups ts).map Codec.intersectionText)
      ((intersectionGroups cs).map fun g => .intersection (g.flatMap Codec.spread)) := by
    rw [List.forall₂_map_left_iff, List.forall₂_map_right_iff]
    exact hGroups.imp fun _ _ => legible_intersection
  -- the groups, each of them parsed as an intersection, add their members to the outer one
  have hSpread :=
    calc ((intersectionGroups cs).map fun g =>
          Codec.intersection (g.flatMap Codec.spread)).flatMap Codec.spread
      _ = (intersectionGroups cs).flatMap fun g => g.flatMap Codec.spread := List.flatMap_map _ _ _
      _ = (intersectionGroups cs).flatten.flatMap Codec.spread := by
          rw [List.flatten_eq_flatMap, List.flatMap_assoc]
          rfl
      _ = cs.flatMap Codec.spread := by rw [flatten_intersectionGroups]
  unfold Codec.groupedText
  split
  · rename_i group hOne
    obtain rfl : group = ts := by simpa [hOne] using flatten_intersectionGroups ts
    exact legible_intersection h
  · rw [← hSpread]
    exact legible_intersection hNested

end

end CodecReader

/-! ## Every codec -/

namespace Codec

open CodecReader

theorem mem_parts_self (c : Codec) : c ∈ c.parts := by
  cases c <;> simp [parts]

namespace Spelled

variable {c d : Codec}

theorem words (h : c.Spelled) : ∀ n ∈ c.words, Token.isName n = true := by
  have hSelf := h c c.mem_parts_self
  cases c <;> simp_all [isSpelled, Codec.words]

theorem name (h : c.Spelled) (hName : c.name ≠ "") : Token.isName c.name = true := by
  cases hSome : c.name? with
  | none => simp [Codec.name, hSome] at hName
  | some n =>
      have hWord : n ∈ c.words := by cases c <;> simp_all [name?, Codec.words]
      simpa [Codec.name, hSome] using h.words n hWord

theorem item (h : c.Spelled) (hParts : c.parts = c :: d.parts) : d.Spelled := by
  intro p hp
  exact h p (hParts ▸ .tail c hp)

theorem members {ds : List Codec} (h : c.Spelled) (hParts : c.parts = c :: ds.flatMap parts) :
    ∀ d ∈ ds, d.Spelled := by
  intro d hd p hp
  exact h p (hParts ▸ .tail c (List.mem_flatMap.mpr ⟨d, hd, hp⟩))

theorem props {ps : List (String × Codec)} (h : c.Spelled)
    (hParts : c.parts = c :: ps.flatMap fun q => q.2.parts) (hKeys : Assoc.keys ps ⊆ c.words) :
    ∀ q ∈ ps, Token.isName q.1 = true ∧ q.2.Spelled := by
  intro q hq
  refine ⟨h.words q.1 (hKeys (List.mem_map_of_mem hq)), fun p hp => ?_⟩
  exact h p (hParts ▸ .tail c (List.mem_flatMap.mpr ⟨q, hq, hp⟩))

end Spelled

theorem legible_reference {c : Codec} {t : String} (hc : c.Spelled) (h : Legible t c.outline) :
    Legible (reference c t) (mentioned c c.outline) := by
  by_cases hName : c.name = ""
  · rwa [reference, mentioned, if_pos hName, if_pos hName]
  · rw [reference, mentioned, if_neg hName, if_neg hName]
    exact legible_name (hc.name hName)

theorem legible_primitive (kind : Primitive) : Legible kind.text (.primitive kind.shown) := by
  cases kind with
  | string => exact legible_of_head .string fun _ => rfl
  | id => exact legible_of_head .string fun _ => rfl
  | int => exact legible_of_head .number fun _ => rfl
  | float => exact legible_of_head .number fun _ => rfl
  | boolean => exact legible_of_head .boolean fun _ => rfl

theorem legible_enum (n : String) {cases : List String} (h : ∀ v ∈ cases, Token.isName v = true) :
    Legible (enumText cases) (outline (.enum n cases)) := by
  match cases with
  | [] =>
      have hText : enumText [] = unionText [] := by decide
      rw [hText]
      exact legible_union .nil
  | [v] => exact legible_literal (h v (by simp))
  | v :: w :: vs => exact legible_cases h

mutual

/-- **The expression of a codec is parsed as its outline.** -/
theorem legible_text (mode : Mode) (c : Codec) (h : c.Spelled) :
    Legible (c.text mode) c.outline := by
  cases c with
  | primitive kind => exact legible_primitive kind
  | scalar n => exact legible_of_head .any fun _ => rfl
  | enum n cases =>
      rw [text]
      exact legible_enum n fun v hv => h.words v (.tail n hv)
  | literal v =>
      rw [text, outline]
      exact legible_literal (h.words v (by simp [words]))
  | object ps =>
      rw [text, outline]
      exact legible_object (settles_propTexts mode ps (h.props (parts_object ps) fun _ => id))
  | input n ps =>
      rw [text, outline]
      exact legible_object
        (settles_propTexts mode ps (h.props (parts_input n ps) fun _ => .tail n))
  | query n ps =>
      rw [text, outline]
      exact legible_object
        (settles_propTexts mode ps (h.props (parts_query n ps) fun _ => .tail n))
  | mutation n ps =>
      rw [text, outline]
      exact legible_object
        (settles_propTexts mode ps (h.props (parts_mutation n ps) fun _ => .tail n))
  | union ts =>
      rw [text, outline]
      exact legible_union (legible_texts mode ts (h.members (parts_union ts)))
  | named n body =>
      have hBody := legible_text mode body (h.item (parts_named n body))
      cases body with
      | object ps =>
          have hps := (h.item (parts_named n (object ps))).props (parts_object ps) fun _ => id
          rw [text, outline]
          exact legible_namedObject (h.words n (by simp [words])) (settles_propTexts mode ps hps)
      | _ => simpa only [text, outline] using hBody
  | array c =>
      rw [text, outline]
      have hc := h.item (parts_array c)
      exact legible_array (legible_reference hc (legible_text mode c hc))
  | option c =>
      rw [text, outline]
      have hc := h.item (parts_option c)
      exact legible_option mode (legible_reference hc (legible_text mode c hc))
  | intersection ts =>
      rw [text, outline]
      exact legible_grouped (legible_texts mode ts (h.members (parts_intersection ts)))
  | pick n fs =>
      rw [text, outline]
      exact legible_pick (h.words n (by simp [words])) fun f hf => h.words f (.tail n hf)
  | unknown => exact absurd (h unknown unknown.mem_parts_self) (by simp [isSpelled])

theorem legible_texts (mode : Mode) (cs : List Codec) (h : ∀ c ∈ cs, c.Spelled) :
    List.Forall₂ Legible (texts mode cs) (outlines cs) := by
  cases cs with
  | nil => exact .nil
  | cons c cs =>
      obtain ⟨hc, hcs⟩ := List.forall_mem_cons.mp h
      exact .cons (legible_reference hc (legible_text mode c hc)) (legible_texts mode cs hcs)

theorem settles_propTexts (mode : Mode) (ps : List (String × Codec))
    (h : ∀ p ∈ ps, Token.isName p.1 = true ∧ p.2.Spelled) :
    List.Forall₂ (Settles fun depth => property (read depth)) (propTexts mode ps)
      (propOutlines ps) := by
  cases ps with
  | nil => exact .nil
  | cons p ps =>
      obtain ⟨⟨hKey, hc⟩, hps⟩ := List.forall_mem_cons.mp h
      exact .cons (settles_property hKey (legible_reference hc (legible_text mode p.2 hc)))
        (settles_propTexts mode ps hps)

end

/-- **The expression of a codec determines its outline**, in either mode. -/
theorem outline_eq_of_text_eq {mode mode' : Mode} {c c' : Codec} (hc : c.Spelled)
    (hc' : c'.Spelled) (h : c.text mode = c'.text mode') : c.outline = c'.outline := by
  have hRead := legible_text mode c hc
  rw [h] at hRead
  exact hRead.unique (legible_text mode' c' hc')

end Codec

namespace Digest

def figure (key : String) (kind : Primitive) : Codec := .object [(key, .primitive kind)]

/-- A response with an intersection of more than five members. -/
def response : Codec :=
  .query "Digest"
    [("id", .primitive .id),
     ("author", .named "Author" (.object [("name", .primitive .string)])),
     ("state", .array (.enum "State" ["OPEN", "CLOSED"])),
     ("figures", .option (.intersection
       (["a", "b", "c", "d", "e", "f"].map (figure · .float))))]

/-- An anonymous object with the same expression, in which the intersections themselves are
nested. -/
def lookalike : Codec :=
  .object
    [("id", .primitive .string),
     ("author", .scalar "Author"),
     ("state", .array (.input "State" [])),
     ("figures", .option (.intersection
       [.intersection (["a", "b", "c", "d"].map (figure · .int)),
        .intersection (["e", "f"].map (figure · .int))]))]

theorem response_text : response.text .input = lookalike.text .input := by
  decide +kernel

theorem response_outline :
    (response.Spelled ∧ lookalike.Spelled ∧ response.text .input = lookalike.text .input) ∧
      response ≠ lookalike ∧ response.outline = lookalike.outline := by
  have hResponse : response.Spelled := by decide
  have hLookalike : lookalike.Spelled := by decide
  refine ⟨⟨hResponse, hLookalike, response_text⟩, by simp [response, lookalike], ?_⟩
  exact Codec.outline_eq_of_text_eq hResponse hLookalike response_text

end Digest

end GraphCodec
