import Mathlib.Logic.ExistsUnique
import GraphCodec.Proofs.Schema

/-!
# Type references and wrappers

A nullable type is an option and a list type an array, so an option is never directly inside an
option, and nothing else is excluded: from the wrappers of a codec the type reference can be
recovered (`Codec.signature`), and the two translations are inverse to each other. Type references
to a name and stacks of wrappers over its codec are therefore in bijection
(`resolve_correspondence`).
-/

set_option autoImplicit false

namespace GraphCodec

/-! ## Looked-up names -/

section

variable {ε : Type}

/-- A lookup that logs its queries. -/
def noted (lookup : String → Except ε Codec) (n : String) :
    ExceptT ε (StateM (List String)) Codec := do
  modify (· ++ [n])
  match lookup n with
  | .ok c => return c
  | .error e => throw e

theorem run_noted (lookup : String → Except ε Codec) (n : String) (asked : List String) :
    (noted lookup n).run.run asked = pure (lookup n, asked ++ [n]) := by
  unfold noted
  cases lookup n <;> rfl

/-- **Resolving a type reference looks up its named type**, once, and nothing else. -/
theorem Signature.run_resolve_noted (lookup : String → Except ε Codec) (t : Signature)
    (asked : List String) :
    Id.run ((t.resolve (noted lookup)).run.run asked)
      = (t.resolve lookup, asked ++ [t.base]) := by
  rw [resolve_eq, resolve_eq, ExceptT.run_map, StateT.run_map, run_noted]
  rfl

end

/-! ## Stacks of wrappers -/

namespace Codec

/-- **List and nullable wrappers around a codec**, without a nullable type directly inside a
nullable type. -/
inductive Stack (core : Codec) : Codec → Prop
  | core : Stack core core
  | array {c : Codec} (h : Stack core c) : Stack core (.array c)
  | option {c : Codec} (h : Stack core c) (hInner : ∀ item, c ≠ .option item) :
      Stack core (.option c)

/-- The type reference to `n` with the wrappers of a codec. -/
def signature (n : String) : Codec → Signature
  | array c => .list (c.signature n) true
  | option (array c) => .list (c.signature n) false
  | option _ => .named n false
  | _ => .named n true

variable {c r : Codec}

theorem base_signature (n : String) (c : Codec) : (c.signature n).base = n := by
  fun_induction signature n c with
  | case1 c ih => exact ih
  | case2 c ih => exact ih
  | case3 => rfl
  | case4 => rfl

theorem signature_plain (n : String) (hc : c.isWrapper = false) :
    c.signature n = .named n true := by
  cases c with
  | array item => cases hc
  | option item => cases hc
  | _ => rfl

theorem signature_option_plain (n : String) (hc : c.isWrapper = false) :
    (option c).signature n = .named n false := by
  cases c with
  | array item => cases hc
  | option item => cases hc
  | _ => rfl

/-- A type reference is recovered from its wrappers. -/
theorem signature_wrap (t : Signature) (hc : c.isWrapper = false) :
    (t.wrap c).signature t.base = t := by
  induction t with
  | named n nonNull =>
      cases nonNull with
      | true => exact signature_plain n hc
      | false => exact signature_option_plain n hc
  | list t nonNull ih =>
      cases nonNull with
      | true => exact congrArg (Signature.list · true) ih
      | false => exact congrArg (Signature.list · false) ih

/-- A stack of wrappers is that of its type reference. -/
theorem Stack.wrap_signature (n : String) (hc : c.isWrapper = false) (h : Stack c r) :
    (r.signature n).wrap c = r := by
  induction h with
  | core =>
      rw [signature_plain n hc]
      rfl
  | array h ih => exact congrArg Codec.array ih
  | option h hInner ih =>
      -- an option is a nullable type, together with the list inside it
      cases h with
      | core =>
          rw [signature_option_plain n hc]
          rfl
      | array h => exact congrArg Codec.option ih
      | option h _ => exact absurd rfl (hInner _)

theorem stack_wrap (t : Signature) (hc : c.isWrapper = false) : Stack c (t.wrap c) := by
  induction t with
  | named n nonNull =>
      cases nonNull with
      | true => exact .core
      | false =>
          refine .option .core ?_
          rintro item rfl
          cases hc
  | list t nonNull ih =>
      cases nonNull with
      | true => exact .array ih
      | false => exact .option (.array ih) fun _ h => by cases h

end Codec

/-! ## The correspondence -/

open Codec in
/-- **Type references to a name correspond to stacks of wrappers over its codec.** Resolving a type
reference looks up its named type and nothing else. Different type references to one name resolve to
different codecs. If the lookup of a name succeeds, every type reference to it resolves to a stack
over the codec found, and every such stack is the codec of exactly one type reference. -/
theorem Signature.resolve_correspondence {ε : Type} {lookup : String → Except ε Codec}
    (hPlain : ∀ n c, lookup n = .ok c → c.isWrapper = false) :
    (∀ (t : Signature) (asked : List String),
        Id.run ((t.resolve (noted lookup)).run.run asked)
          = (t.resolve lookup, asked ++ [t.base])) ∧
      (∀ t t' : Signature, t.base = t'.base → ∀ r, t.resolve lookup = .ok r →
        t'.resolve lookup = .ok r → t = t') ∧
      ∀ n c, lookup n = .ok c →
        (∀ t : Signature, t.base = n → ∃ r, t.resolve lookup = .ok r ∧ Stack c r) ∧
          ∀ r, Stack c r → ∃! t : Signature, t.base = n ∧ t.resolve lookup = .ok r := by
  have hResolve : ∀ {t : Signature} {c : Codec}, lookup t.base = .ok c →
      t.resolve lookup = .ok (t.wrap c) := by
    intro t c hc
    rw [resolve_eq, hc]
    rfl
  -- the codec of a type reference determines it, once the name is known
  have hBack : ∀ {t : Signature} {r : Codec}, t.resolve lookup = .ok r →
      r.signature t.base = t := by
    intro t r hr
    cases hc : lookup t.base with
    | error e =>
        rw [resolve_eq, hc] at hr
        cases hr
    | ok c =>
        rw [hResolve hc] at hr
        cases hr
        exact signature_wrap t (hPlain _ c hc)
  refine ⟨fun t asked => run_resolve_noted lookup t asked, ?_, fun n c hc => ⟨?_, ?_⟩⟩
  · intro t t' hBase r hr hr'
    rw [← hBack hr, ← hBack hr', hBase]
  · rintro t rfl
    exact ⟨t.wrap c, hResolve hc, stack_wrap t (hPlain _ c hc)⟩
  · intro r hr
    have hBase := base_signature n r
    refine ⟨r.signature n, ⟨hBase, ?_⟩, ?_⟩
    · rw [hResolve (hBase.symm ▸ hc), hr.wrap_signature n (hPlain _ c hc)]
    · rintro t ⟨rfl, ht⟩
      exact (hBack ht).symm

namespace Grid

/-- The codec of a built-in scalar. -/
def lookup (n : String) : Except String Codec :=
  match builtins.lookup n with
  | some p => .ok (.primitive p)
  | none => .error n

theorem lookup_plain (n : String) (c : Codec) (h : lookup n = .ok c) : c.isWrapper = false := by
  unfold lookup at h
  split at h
  · cases h
    rfl
  · cases h

/-- The type `[[Int]]!`. -/
def rows : Signature := .list (.list (.named "Int" false) false) true

def rowsCodec : Codec := .array (.option (.array (.option (.primitive .int))))

/-- No other type reference to `Int` has the codec of `[[Int]]!`. -/
theorem rows_correspond :
    (∀ n c, lookup n = .ok c → c.isWrapper = false) ∧
      lookup "Int" = .ok (.primitive .int) ∧ Codec.Stack (.primitive .int) rowsCodec ∧
      Id.run ((rows.resolve (noted lookup)).run.run []) = (.ok rowsCodec, ["Int"]) ∧
      ∃! t : Signature, t.base = "Int" ∧ t.resolve lookup = .ok rowsCodec := by
  obtain ⟨hAsked, -, hStacks⟩ := Signature.resolve_correspondence lookup_plain
  have hStack : Codec.Stack (.primitive .int) rowsCodec :=
    .array (.option (.array (.option .core (by simp))) (by simp))
  refine ⟨lookup_plain, rfl, hStack, hAsked rows [], ?_⟩
  exact (hStacks "Int" (.primitive .int) rfl).2 rowsCodec hStack

end Grid

end GraphCodec
