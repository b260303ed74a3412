import GraphCodec.Codec.Printer

/-!
# Codecs are printed by reference

A named operand is printed as its identifier, because its definition is exported separately. So the
expression of a codec does not depend on the definitions of its identifiers: replacing named
operands by other codecs of the same names, of other kinds and with other bodies, keeps the
expression (`written_of_redefined`). Only the codec itself must stay the same.
-/

set_option autoImplicit false

namespace GraphCodec

namespace Codec

/-! ## Redefined operands -/

mutual

/-- **Codecs that differ only below named operands.** The codec itself is the same, and so is the
body of an object or union type. -/
inductive Redefined : Codec → Codec → Prop
  | refl (c : Codec) : Redefined c c
  | object {ps ps' : List (String × Codec)} (h : RedefinedProps ps ps') :
      Redefined (object ps) (object ps')
  | input (n : String) {ps ps' : List (String × Codec)} (h : RedefinedProps ps ps') :
      Redefined (input n ps) (input n ps')
  | query (n : String) {ps ps' : List (String × Codec)} (h : RedefinedProps ps ps') :
      Redefined (query n ps) (query n ps')
  | mutation (n : String) {ps ps' : List (String × Codec)} (h : RedefinedProps ps ps') :
      Redefined (mutation n ps) (mutation n ps')
  | namedObject (n : String) {ps ps' : List (String × Codec)} (h : RedefinedProps ps ps') :
      Redefined (named n (object ps)) (named n (object ps'))
  | namedUnion (n : String) {ts ts' : List Codec} (h : RedefinedAll ts ts') :
      Redefined (named n (union ts)) (named n (union ts'))
  | union {ts ts' : List Codec} (h : RedefinedAll ts ts') : Redefined (union ts) (union ts')
  | intersection {ts ts' : List Codec} (h : RedefinedAll ts ts') :
      Redefined (intersection ts) (intersection ts')
  | array {c c' : Codec} (h : RedefinedPart c c') : Redefined (array c) (array c')
  | option {c c' : Codec} (h : RedefinedPart c c') : Redefined (option c) (option c')

/-- Operands that are printed alike: any two of one name, and anonymous ones that differ below named
operands. -/
inductive RedefinedPart : Codec → Codec → Prop
  | other {c c' : Codec} (hName : c.name ≠ "") (hSame : c'.name = c.name) : RedefinedPart c c'
  | kept {c c' : Codec} (h : Redefined c c') : RedefinedPart c c'

inductive RedefinedAll : List Codec → List Codec → Prop
  | nil : RedefinedAll [] []
  | cons {c c' : Codec} {cs cs' : List Codec} (h : RedefinedPart c c')
      (hs : RedefinedAll cs cs') : RedefinedAll (c :: cs) (c' :: cs')

inductive RedefinedProps : List (String × Codec) → List (String × Codec) → Prop
  | nil : RedefinedProps [] []
  | cons (k : String) {c c' : Codec} {ps ps' : List (String × Codec)} (h : RedefinedPart c c')
      (hs : RedefinedProps ps ps') : RedefinedProps ((k, c) :: ps) ((k, c') :: ps')

end

theorem Redefined.name_eq {c c' : Codec} (h : Redefined c c') : c'.name = c.name := by
  cases h <;> rfl

/-! ## Expressions -/

mutual

/-- **The expression does not depend on the definitions of its identifiers.** -/
theorem Redefined.text_eq (mode : Mode) {c c' : Codec} (h : Redefined c c') :
    c.text mode = c'.text mode := by
  match h with
  | .refl _ => rfl
  | .object h => rw [text, text, h.texts_eq mode]
  | .input n h => rw [text, text, h.texts_eq mode]
  | .query n h => rw [text, text, h.texts_eq mode]
  | .mutation n h => rw [text, text, h.texts_eq mode]
  | .namedObject n h => rw [text, text, h.texts_eq mode]
  | .namedUnion n h => simp only [text, h.texts_eq mode]
  | .union h => rw [text, text, h.texts_eq mode]
  -- the groups of an intersection are groups of expressions, so they are the same as well
  | .intersection h => rw [text, text, h.texts_eq mode]
  | .array h => rw [text, text, h.reference_eq mode]
  | .option h => rw [text, text, h.reference_eq mode]

theorem RedefinedPart.reference_eq (mode : Mode) {c c' : Codec} (h : RedefinedPart c c') :
    reference c (c.text mode) = reference c' (c'.text mode) := by
  match h with
  | .other hName hSame => rw [reference, reference, hSame, if_neg hName, if_neg hName]
  | .kept h => rw [reference, reference, h.name_eq, h.text_eq mode]

theorem RedefinedAll.texts_eq (mode : Mode) {cs cs' : List Codec} (h : RedefinedAll cs cs') :
    texts mode cs = texts mode cs' := by
  match h with
  | .nil => rfl
  | .cons h hs => rw [texts, texts, h.reference_eq mode, hs.texts_eq mode]

theorem RedefinedProps.texts_eq (mode : Mode) {ps ps' : List (String × Codec)}
    (h : RedefinedProps ps ps') : propTexts mode ps = propTexts mode ps' := by
  match h with
  | .nil => rfl
  | .cons k h hs => rw [propTexts, propTexts, h.reference_eq mode, hs.texts_eq mode]

end

mutual

/-- Printability does not depend on the definitions of identifiers. -/
theorem Redefined.printable_eq {c c' : Codec} (h : Redefined c c') :
    c.printable = c'.printable := by
  match h with
  | .refl _ => rfl
  | .object h => exact h.printable_eq
  | .input n h => exact h.printable_eq
  | .query n h => exact h.printable_eq
  | .mutation n h => exact h.printable_eq
  | .namedObject n h => exact h.printable_eq
  | .namedUnion n h => exact h.printable_eq
  | .union h => exact h.printable_eq
  | .intersection h => exact h.printable_eq
  | .array h => exact h.printable_eq
  | .option h => exact h.printable_eq

theorem RedefinedPart.printable_eq {c c' : Codec} (h : RedefinedPart c c') :
    (c.name ≠ "" || c.printable) = (c'.name ≠ "" || c'.printable) := by
  match h with
  | .other hName hSame => simp [hSame, hName]
  | .kept h => rw [h.name_eq, h.printable_eq]

theorem RedefinedAll.printable_eq {cs cs' : List Codec} (h : RedefinedAll cs cs') :
    allPrintable cs = allPrintable cs' := by
  match h with
  | .nil => rfl
  | .cons h hs => rw [allPrintable, allPrintable, h.printable_eq, hs.printable_eq]

theorem RedefinedProps.printable_eq {ps ps' : List (String × Codec)}
    (h : RedefinedProps ps ps') : propsPrintable ps = propsPrintable ps' := by
  match h with
  | .nil => rfl
  | .cons k h hs => rw [propsPrintable, propsPrintable, h.printable_eq, hs.printable_eq]

end

/-! ## Exports -/

namespace Redefined

variable {c c' : Codec}

theorem ofCodec_eq (mode : Mode) (h : Redefined c c') :
    Export.ofCodec mode c = Export.ofCodec mode c' := by
  rw [Export.ofCodec, Export.ofCodec, h.name_eq, h.text_eq mode]

/-- The mode of a type export depends on the kind of the codec only. -/
theorem ofType_eq (h : Redefined c c') : Export.ofType c = Export.ofType c' := by
  have hOutput := h.ofCodec_eq .output
  have hInput := h.ofCodec_eq .input
  cases h with
  | refl => rfl
  | input n h => exact hInput
  | _ => exact hOutput

theorem ofSelection_eq (h : Redefined c c') : Export.ofSelection c = Export.ofSelection c' := by
  have hTag : Export.responseTag c' = Export.responseTag c := by
    cases h <;> rfl
  rw [Export.ofSelection, Export.ofSelection, h.name_eq, h.text_eq .output, hTag]

theorem written_eq (h : Redefined c c') {write : Codec → String} (hWrite : write c = write c') :
    c.written write = c'.written write := by
  rw [written, written, h.printable_eq, hWrite]

end Redefined

/-- **Codecs are printed by reference.** Redefining the named operands of a codec changes neither
its expression, in either mode, nor any export of it: as a schema type, as variables or as a
response. -/
theorem written_of_redefined {c c' : Codec} (h : Redefined c c') :
    (∀ mode, c.written (text mode) = c'.written (text mode)) ∧
      (c.written fun d => (Export.ofType d).text) = (c'.written fun d => (Export.ofType d).text) ∧
      (c.written fun d => (Export.ofVariables d).text)
        = (c'.written fun d => (Export.ofVariables d).text) ∧
      (c.written fun d => (Export.ofSelection d).text)
        = c'.written fun d => (Export.ofSelection d).text := by
  refine ⟨fun mode => h.written_eq (h.text_eq mode), h.written_eq ?_, h.written_eq ?_,
    h.written_eq ?_⟩
  · rw [h.ofType_eq]
  · exact congrArg Export.text (h.ofCodec_eq .input)
  · rw [h.ofSelection_eq]

end Codec

/-! ## A poster by somebody else -/

namespace Poster

/-- A type that refers to two others: below an array, in a group of an intersection, and in an
anonymous object. -/
def poster (author rating : Codec) : Codec :=
  .named "Poster" (.object
    [("author", author),
     ("ratings", .array (.option rating)),
     ("credits", .intersection
       [.typename "Credits", .pick "Credits" ["year"], .object [("by", author)],
        .object [("best", rating)], .object [("last", rating)], .object [("first", rating)]]),
     ("copy", .named "" (.union [author, .literal "NONE"]))])

def author : Codec := .named "Author" (.object [("name", .primitive .string)])

def rating : Codec := .enum "Rating" ["GOOD", "BAD"]

/-- An author of another kind, which is not printable. -/
def strangeAuthor : Codec := .input "Author" [("name", .unknown)]

def strangeRating : Codec := .named "Rating" (.union [author, author])

open Codec in
theorem poster_redefined :
    Redefined (poster author rating) (poster strangeAuthor strangeRating) := by
  have hAuthor : RedefinedPart author strangeAuthor := .other (by decide) rfl
  have hRating : RedefinedPart rating strangeRating := .other (by decide) rfl
  have hSame : ∀ c, RedefinedPart c c := fun c => .kept (.refl c)
  have hObject : ∀ {k : String} {c c' : Codec}, RedefinedPart c c' →
      RedefinedPart (.object [(k, c)]) (.object [(k, c')]) :=
    fun h => .kept (.object (.cons _ h .nil))
  refine .namedObject _ (.cons _ hAuthor (.cons _ ?_ (.cons _ ?_ (.cons _ ?_ .nil))))
  · exact .kept (.array (.kept (.option hRating)))
  · exact .kept (.intersection (.cons (hSame _) (.cons (hSame _) (.cons (hObject hAuthor)
      (.cons (hObject hRating) (.cons (hObject hRating) (.cons (hObject hRating) .nil)))))))
  · exact .kept (.namedUnion _ (.cons hAuthor (.cons (hSame _) .nil)))

/-- Both posters have the same expression and the same export. -/
theorem poster_written :
    Codec.Redefined (poster author rating) (poster strangeAuthor strangeRating) ∧
      poster author rating ≠ poster strangeAuthor strangeRating ∧
      (∃ t, (poster author rating).written (Codec.text .output) = .ok t ∧
        (poster strangeAuthor strangeRating).written (Codec.text .output) = .ok t) ∧
      ∃ t, ((poster author rating).written fun d => (Export.ofType d).text) = .ok t ∧
        ((poster strangeAuthor strangeRating).written fun d => (Export.ofType d).text) = .ok t := by
  obtain ⟨hText, hType, -⟩ := Codec.written_of_redefined poster_redefined
  have hPrintable : (poster author rating).printable = true := by decide
  refine ⟨poster_redefined, by simp [poster, author, strangeAuthor],
    ⟨_, if_pos hPrintable, ?_⟩, ⟨_, if_pos hPrintable, ?_⟩⟩
  · rw [← hText]
    exact if_pos hPrintable
  · rw [← hType]
    exact if_pos hPrintable

end Poster

end GraphCodec
