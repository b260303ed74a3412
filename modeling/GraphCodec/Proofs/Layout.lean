import GraphCodec.Generator
import GraphCodec.Proofs.Runs

/-!
# The layout of a module

The built-in template prints the exports of the compiled module in order, all types before the
variables and all variables before the selections, with only line feeds between them
(`CodecModule.printed_body`). A custom template is given the texts of the same exports in three
lists, and the engine decides.

`Generator.LaidOut` says this of a rendered text, and every rendered text satisfies it
(`Generator.laidOut_of_render`).
-/

set_option autoImplicit false

namespace GraphCodec

/-- **A text that prints exports in order**, with only line feeds between them. -/
inductive Printed : List Export → String → Prop
  | nil {gap : String} (hGap : ∀ c ∈ gap.toList, c = '\n') : Printed [] gap
  | cons {gap rest : String} {e : Export} {es : List Export} (hGap : ∀ c ∈ gap.toList, c = '\n')
      (hRest : Printed es rest) : Printed (e :: es) (gap ++ e.text ++ rest)

namespace Printed

variable {es es' : List Export} {text text' gap : String}

/-- Leading line feeds are allowed. -/
theorem behind (hGap : ∀ c ∈ gap.toList, c = '\n') (h : Printed es text) :
    Printed es (gap ++ text) := by
  have hBoth : ∀ {more : String}, (∀ c ∈ more.toList, c = '\n') →
      ∀ c ∈ (gap ++ more).toList, c = '\n' := by
    intro more hMore c hc
    rw [String.toList_append] at hc
    exact (List.mem_append.mp hc).elim (hGap c) (hMore c)
  cases h with
  | nil hMore => exact .nil (hBoth hMore)
  | cons hMore hRest =>
      rw [← String.append_assoc, ← String.append_assoc]
      exact .cons (hBoth hMore) hRest

theorem append (h : Printed es text) (h' : Printed es' text') :
    Printed (es ++ es') (text ++ text') := by
  induction h with
  | nil hGap => exact h'.behind hGap
  | cons hGap _ ih =>
      rw [String.append_assoc]
      exact .cons hGap ih

end Printed

namespace CodecModule

theorem sectionText_cons (e : Export) (es : List Export) :
    sectionText (e :: es) = "\n" ++ e.text ++ sectionText es := by
  simp only [sectionText, List.map_cons, String.join_cons, String.append_assoc]

theorem printed_sectionText (es : List Export) : Printed es (sectionText es) := by
  induction es with
  | nil => exact .nil (by simp [sectionText])
  | cons e es ih =>
      rw [sectionText_cons]
      exact .cons (by simp) ih

/-- **The built-in template prints the exports in order.** -/
theorem printed_body (m : CodecModule) : Printed m.blocks m.body := by
  rw [blocks, ← List.append_assoc]
  exact ((printed_sectionText m.types).append (printed_sectionText m.vars)).append
    (printed_sectionText m.selections)

end CodecModule

namespace Generator

variable {g : Generator} {engine : TemplateEngine} {place : Place} {m : CodecModule} {text : String}

/-- **The rendered text of a module.** By the built-in template it is the preamble followed by the
exports in order; by a custom template it is the output of the engine on the exports. -/
inductive LaidOut (g : Generator) (engine : TemplateEngine) (place : Place) (m : CodecModule) :
    String → Prop
  | builtin {body : String} (hTemplate : g.template? place = .ok none)
      (hBody : Printed m.blocks body) : LaidOut g engine place m (CodecModule.preamble ++ body)
  | custom {source text : String} (hTemplate : g.template? place = .ok (some source))
      (hText : engine (g.load place) source (m.types.map Export.text) (m.vars.map Export.text)
        (m.selections.map Export.text) = .ok text) : LaidOut g engine place m text

/-- Without a template directory the built-in template is used. -/
theorem template?_of_templates_eq_none (h : g.templates = none) : g.template? place = .ok none := by
  simp [template?, load, h]

theorem layOut_of_builtin (h : g.template? place = .ok none) :
    g.layOut engine place m = .ok m.text := by
  rw [layOut, h]
  rfl

theorem render_eq_ok : g.render engine place = .ok text ↔
    ∃ m, g.compile = .ok m ∧ g.layOut engine place m = .ok text := by
  simp only [render, bind_eq_ok, mapError_eq_ok]

/-- With the built-in template, every compiled module is rendered. -/
theorem render_of_builtin (h : g.template? place = .ok none) (hm : g.compile = .ok m) :
    g.render engine place = .ok m.text :=
  render_eq_ok.mpr ⟨m, hm, layOut_of_builtin h⟩

/-- **A rendered text is that of the compiled module.** -/
theorem laidOut_of_render (h : g.render engine place = .ok text) :
    ∃ m, g.compile = .ok m ∧ g.LaidOut engine place m text := by
  obtain ⟨m, hm, hText⟩ := render_eq_ok.mp h
  refine ⟨m, hm, ?_⟩
  obtain ⟨source?, hTemplate, hText⟩ := bind_eq_ok.mp hText
  cases source? with
  | none =>
      cases hText
      exact .builtin hTemplate m.printed_body
  | some source => exact .custom hTemplate hText

end Generator

end GraphCodec
