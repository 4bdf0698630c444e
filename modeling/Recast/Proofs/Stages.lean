-- The stages of a unit. A unit with errors is given up before anything is
-- done for it, unless errors are ignored. A unit that comes through is
-- suppressed if it declares nothing but annotation types, and then it has
-- bound nothing and warned of nothing; any other unit is rendered, and its
-- text, which is never empty, is written once.
import Recast.Proofs.Bindings
import Recast.Proofs.Leaves
import Recast.Proofs.Lines
import Recast.Proofs.Markers

namespace Recast

variable {τ : Type}

/-! ## Units of annotation types -/

/-- The unit declares nothing but annotation types at its top level. -/
def SourceUnit.OnlyAnnotations (u : SourceUnit) : Prop :=
  ∀ decl ∈ u.types, decl.kind = .annotationType

namespace Recasting

variable (scope : Scope)

theorem typeDecl_of_annotationType (identity : String) {decl : Source.TypeDecl}
    (h : decl.kind = .annotationType) : typeDecl scope identity decl = pure none := by
  obtain ⟨name, kind, modifiers, base, interfaces, constants, members, span⟩ := decl
  cases h
  simp [typeDecl, kind?]

/-- Every other type has a counterpart. -/
theorem typeDecl_isSome (identity : String) {decl : Source.TypeDecl}
    (h : decl.kind ≠ .annotationType) (notes : Notes) :
    ∃ decl' notes', (typeDecl scope identity decl).run notes = (some decl', notes') := by
  obtain ⟨name, kind, modifiers, base, interfaces, constants, members, span⟩ := decl
  cases hkind : kind? kind with
  | none => exact absurd (kind?_eq_none.mp hkind) h
  | some kind' =>
    unfold typeDecl
    rw [hkind]
    exact ⟨_, _, rfl⟩

theorem typeDecls_annotations (qualify : String → String) (decls : List Source.TypeDecl)
    (h : ∀ decl ∈ decls, decl.kind = .annotationType) :
    typeDecls scope qualify decls = pure [] := by
  induction decls with
  | nil => rfl
  | cons decl rest ih =>
    unfold typeDecls
    rw [typeDecl_of_annotationType scope _ (h decl (List.mem_cons_self ..)),
      ih fun d hd => h d (List.mem_cons_of_mem _ hd)]
    simp

theorem typeDecls_ne_nil (qualify : String → String) (decls : List Source.TypeDecl)
    (h : ¬ ∀ decl ∈ decls, decl.kind = .annotationType) (notes : Notes) :
    ((typeDecls scope qualify decls).run notes).1 ≠ [] := by
  induction decls generalizing notes with
  | nil => simp at h
  | cons decl rest ih =>
    unfold typeDecls
    by_cases hkind : decl.kind = .annotationType
    · have hrest : ¬ ∀ d ∈ rest, d.kind = .annotationType := by
        intro hall
        exact h (List.forall_mem_cons.mpr ⟨hkind, hall⟩)
      rw [typeDecl_of_annotationType scope _ hkind, pure_bind]
      have hbind := ih hrest notes
      simpa using hbind
    · obtain ⟨decl', notes', hrun⟩ := typeDecl_isSome scope (qualify decl.name) hkind notes
      rw [run_bind_of hrun]
      simp

end Recasting

namespace SourceUnit

variable {u : SourceUnit}

theorem declarations_of_onlyAnnotations (h : u.OnlyAnnotations) : u.declarations = [] := by
  unfold declarations
  rw [List.flatMap_eq_nil_iff]
  intro decl hdecl
  obtain ⟨name, kind, modifiers, base, interfaces, constants, members, span⟩ := decl
  cases h _ hdecl
  simp [Source.TypeDecl.declarations]

/-- A unit of annotation types becomes a unit to be suppressed, and
nothing is bound and nothing is lost. -/
theorem recast_of_onlyAnnotations (h : u.OnlyAnnotations) (bindings : Bindings) :
    u.recast bindings =
      ⟨bindings, [], .ok { TargetUnit.silent u.path with space := u.space }⟩ := by
  have hbind : (bindings.bindAll u.declarations).2 = none := by
    rw [declarations_of_onlyAnnotations h]
    rfl
  have htypes : u.recastTypes bindings = ([], .empty) := by
    unfold recastTypes
    rw [Recasting.typeDecls_annotations _ _ _ h]
    rfl
  rw [recast_of_bound hbind, declarations_of_onlyAnnotations h, Bindings.extend_nil]
  unfold targetOf
  rw [htypes]
  rfl

/-- Any other unit has a type to print. -/
theorem types_ne_nil_of_recast {bindings : Bindings} {target : TargetUnit}
    (hu : ¬ u.OnlyAnnotations) (h : (u.recast bindings).result = .ok target) :
    target.types ≠ [] ∧ target.suppressed = false := by
  obtain ⟨_, _, rfl⟩ := recast_ok h
  have hne : (u.recastTypes (bindings.extend u.declarations)).1 ≠ [] :=
    Recasting.typeDecls_ne_nil _ _ _ hu _
  refine ⟨hne, ?_⟩
  exact List.isEmpty_eq_false_iff.mpr hne

end SourceUnit

/-! ## The text of a unit -/

namespace CSharp

theorem length_typeDeclText_pos (level : Nat) (decl : Target.TypeDecl) :
    0 < (typeDeclText level decl).length := by
  obtain ⟨name, kind, modifiers, bases, constants, members⟩ := decl
  have hend : ("\x7d\n" : String).length = 2 := rfl
  unfold typeDeclText
  rw [String.length_append, hend]
  omega

theorem length_typeDeclTexts_pos (level : Nat) {decls : List Target.TypeDecl} (h : decls ≠ []) :
    0 < (typeDeclTexts level decls).length := by
  fun_cases typeDeclTexts level decls with
  | case1 => exact absurd rfl h
  | case2 decl => exact length_typeDeclText_pos level decl
  | case3 decl rest hrest =>
    have hdecl := length_typeDeclText_pos level decl
    simp only [String.length_append]
    omega

/-- A unit with a type has a text. -/
theorem length_unitText_pos {u : TargetUnit} (h : u.types ≠ []) : 0 < (unitText u).length := by
  unfold unitText
  cases u.space with
  | some space =>
    have htypes := length_typeDeclTexts_pos 1 h
    simp only [String.length_append]
    omega
  | none =>
    have htypes := length_typeDeclTexts_pos 0 h
    simp only [String.length_append]
    omega

end CSharp

/-! ## Operations on markers -/

/-- From the one state to the other by operations of the store alone. -/
inductive MarkerStore.Leads (store : MarkerStore (StateM τ)) (t : τ) : τ → Prop
  | refl : Leads store t t
  | clear {t₁ : τ} (unit : Path) :
      Leads store t t₁ → Leads store t ((store.clear unit).run.run t₁).2
  | add {t₁ : τ} (unit : Path) (marker : Marker) :
      Leads store t t₁ → Leads store t ((store.add unit marker).run.run t₁).2

/-- What the store leaves alone is the same behind its operations. -/
theorem MarkerStore.Leads.unchanged {D : Type} {store : MarkerStore (StateM τ)} {view : τ → D}
    (hleaves : store.Leaves view) {t t' : τ} (h : store.Leads t t') : view t' = view t := by
  induction h with
  | refl => rfl
  | clear unit _ ih => exact (hleaves.clear unit _).trans ih
  | add unit marker _ ih => exact (hleaves.add unit marker _).trans ih

/-- Behind its lines, finishing a unit is a matter of the store alone. -/
theorem Sink.finish_leads (sink : Sink (StateM τ)) (d : Diagnostics) (t : τ) :
    sink.store.Leads ((sink.writeLines d.problems).run t).2 ((d.finish sink).run.run t).2 := by
  have hlines : Ensures (· = t) (sink.writeLines d.problems)
      fun _ => sink.store.Leads ((sink.writeLines d.problems).run t).2 := by
    rintro _ rfl
    exact .refl
  exact d.finish_keeps hlines (fun unit _ h => .clear unit h) (fun unit marker _ h =>
    .add unit marker h) t rfl

theorem Diagnostics.finish_ok {sink : Sink (StateM τ)} {d : Diagnostics} {problems : List Problem}
    {t t' : τ} (h : (d.finish sink).run.run t = (.ok problems, t')) : problems = d.problems := by
  unfold finish at h
  obtain ⟨_, _, _, h⟩ := attempt_bind_ok h
  obtain ⟨_, _, _, h⟩ := attempt_bind_ok h
  obtain ⟨_, _, _, h⟩ := attempt_bind_ok h
  cases h
  rfl

/-! ## One unit -/

namespace Setup

/-- What waits of a unit that came through. -/
theorem prepared_ok {m : Type → Type} {setup : Setup m} {bindings bound : Bindings}
    {u : SourceUnit} {pending : Pending} (h : setup.prepared bindings u = (.ok pending, bound)) :
    setup.refuses u = false ∧ bound = (u.recast bindings).bindings ∧
      (u.recast bindings).result = .ok pending.target ∧
      pending.text = setup.textOf pending.target ∧
      pending.trace = [.parsed, .validated, .recast] ∧
      pending.diagnostics = u.diagnostics.addWarnings (u.recast bindings).warnings := by
  unfold prepared at h
  split at h
  · cases h
  · rename_i hrefuses
    dsimp only at h
    split at h
    · cases h
    · rename_i target htarget
      cases h
      exact ⟨Bool.eq_false_iff.mpr hrefuses, rfl, htarget, rfl, rfl, rfl⟩

theorem prepared_of_refuses {m : Type → Type} {setup : Setup m} {u : SourceUnit}
    (h : setup.refuses u = true) (bindings : Bindings) :
    setup.prepared bindings u = (.error (.aborted u.path u.errors.length), bindings) := by
  unfold prepared
  rw [if_pos h]

/-- A unit that is emitted has its diagnostics finished, and then its text
is written, if it has one. -/
theorem emit_ok {setup : Setup (StateM τ)} {dest : Destination (StateM τ)} {pending : Pending}
    {report : Report} {t t' : τ}
    (h : (setup.emit dest pending).run.run t = (.ok report, t')) :
    report.problems = pending.diagnostics.problems ∧
    ∃ t₁, (pending.diagnostics.finish setup.sink).run.run t = (.ok report.problems, t₁) ∧
      ((pending.text = none ∧ t' = t₁ ∧ report.trace = pending.trace ++ [.suppressed, .done]) ∨
        ∃ text, pending.text = some text ∧
          (dest.write pending.target text).run.run t₁ = (.ok (), t') ∧
          report.trace = pending.trace ++ [.rendered, .done]) := by
  unfold emit at h
  obtain ⟨problems, t₁, hfinish, h⟩ := attempt_bind_ok h
  obtain ⟨stages, t₂, hdeliver, h⟩ := attempt_bind_ok h
  cases h
  have hfinish := attempt_adapt_ok hfinish
  refine ⟨Diagnostics.finish_ok hfinish, t₁, hfinish, ?_⟩
  unfold deliver at hdeliver
  split at hdeliver
  · rename_i htext
    cases hdeliver
    exact Or.inl ⟨htext, rfl, rfl⟩
  · rename_i text htext
    obtain ⟨_, t₂, hwrite, hdeliver⟩ := attempt_bind_ok hdeliver
    cases hdeliver
    exact Or.inr ⟨text, htext, attempt_adapt_ok hwrite, rfl⟩

end Setup

theorem SourceUnit.hasErrors_of_errors {u : SourceUnit} (h : u.errors ≠ []) :
    u.hasErrors = true := by
  obtain ⟨p, hp⟩ := List.exists_mem_of_ne_nil _ h
  obtain ⟨hmem, herror⟩ := List.mem_filter.mp hp
  exact List.any_eq_true.mpr ⟨p, hmem, herror⟩

theorem Setup.refuses_of_errors {m : Type → Type} {setup : Setup m} {u : SourceUnit}
    (hignore : setup.config.ignoreErrors = false) (herrors : u.errors ≠ []) :
    setup.refuses u = true := by
  unfold Setup.refuses
  rw [SourceUnit.hasErrors_of_errors herrors, hignore]
  rfl

/-- A unit that is given up writes the lines of its errors. -/
theorem Setup.LinesOn.process_of_refuses {W : Type} {setup : Setup (StateM W)}
    {dest : Destination (StateM W)} {text : W → String} (hlines : setup.LinesOn dest text)
    {u : SourceUnit} (h : setup.refuses u = true) (bindings : Bindings) (w : W) :
    text ((setup.process dest bindings u).run w).2 = text w ++ linesText u.errors := by
  have hprepare := hlines.prepare bindings u w rfl
  rcases hrun : (setup.prepare bindings u).run w with ⟨result, w₁⟩
  rw [hrun, Setup.prepared_of_refuses h] at hprepare
  obtain ⟨rfl, htext⟩ := hprepare
  unfold Setup.process
  rw [run_bind_of hrun]
  have hrecorded : setup.recorded bindings u = u.errors := if_pos h
  dsimp only at htext
  rw [hrecorded] at htext
  exact htext

/-! ## The stages -/

/-- The unit came through and has no text: it declares nothing but
annotation types. Nothing was lost or bound, and only markers may have
changed. -/
structure Suppressed (store : MarkerStore (StateM τ)) (u : SourceUnit)
    (bindings bound : Bindings) (report : Report) (t t' : τ) : Prop where
  annotations : u.OnlyAnnotations
  trace : report.trace = [.parsed, .validated, .recast, .suppressed, .done]
  lossless : (u.recast bindings).warnings = []
  unbound : bound = bindings
  markers : store.Leads t t'

/-- The unit came through, and its text was written once, after its
markers. The text goes on behind the header. -/
structure Rendered (config : RunConfig) (store : MarkerStore (StateM τ))
    (dest : Destination (StateM τ)) (u : SourceUnit) (bindings : Bindings) (report : Report)
    (t t' : τ) : Prop where
  others : ¬ u.OnlyAnnotations
  trace : report.trace = [.parsed, .validated, .recast, .rendered, .done]
  written : ∃ target text t₁, (u.recast bindings).result = .ok target ∧
    text = config.header ++ CSharp.unitText target ∧ config.header.length < text.length ∧
    store.Leads t t₁ ∧ (dest.write target text).run.run t₁ = (.ok (), t')

/-- The problems of a unit that is told of are its errors and then its
warnings, and its markers and its text come out as its stages say. -/
theorem Setup.emit_stages {config : RunConfig} {sink : Sink (StateM τ)}
    {dest : Destination (StateM τ)} {u : SourceUnit} {bindings bound : Bindings}
    {pending : Pending} {report : Report} {t t' : τ}
    (hp : (Setup.mk config .csharp sink).prepared bindings u = (.ok pending, bound))
    (h : ((Setup.mk config .csharp sink).quiet.emit dest pending).run.run t = (.ok report, t')) :
    report.problems = u.errors ++ (u.recast bindings).warnings.map (·.problem u.path) ∧
      (Suppressed sink.store u bindings bound report t t' ∨
        Rendered config sink.store dest u bindings report t t') := by
  obtain ⟨_, hbound, htarget, htext, htrace, hdiagnostics⟩ := Setup.prepared_ok hp
  obtain ⟨hproblems, t₁, hfinish, hend⟩ := Setup.emit_ok h
  have hleads := (Setup.mk config .csharp sink).quiet.sink.finish_leads pending.diagnostics t
  rw [hfinish, Setup.writeLines_quiet] at hleads
  have hmarkers : sink.store.Leads t t₁ := hleads
  refine ⟨by simp [hproblems, hdiagnostics], ?_⟩
  rw [htrace] at hend
  -- whether there is a text depends on the types of the unit alone
  by_cases hu : u.OnlyAnnotations
  · have hrecast := SourceUnit.recast_of_onlyAnnotations hu bindings
    rw [hrecast] at htarget hbound
    have hnone : pending.text = none := by
      rw [htext, ← Except.ok.inj htarget]
      rfl
    rcases hend with ⟨_, rfl, hstages⟩ | ⟨text, hsome, _⟩
    · refine Or.inl ⟨hu, hstages, ?_, hbound, hmarkers⟩
      rw [hrecast]
    · rw [hnone] at hsome
      cases hsome
  · obtain ⟨htypes, hsuppressed⟩ := SourceUnit.types_ne_nil_of_recast hu htarget
    have hrender : pending.text = some (config.header ++ CSharp.unitText pending.target) := by
      rw [htext]
      unfold Setup.textOf
      rw [hsuppressed]
      rfl
    rcases hend with ⟨hnone, _, _⟩ | ⟨text, hsome, hwrite, hstages⟩
    · rw [hrender] at hnone
      cases hnone
    · rw [hrender] at hsome
      cases hsome
      have hlength := CSharp.length_unitText_pos htypes
      refine Or.inr ⟨hu, hstages, pending.target, _, t₁, htarget, rfl, ?_, hmarkers, hwrite⟩
      rw [String.length_append]
      omega

/-- A unit with errors that are not ignored is given up: it writes the lines
of its errors and leaves all else as it was. A unit that binds a name twice
leaves the store and the destination as they were. A unit that is told of
went through the stages in order; it was suppressed if it declares nothing
but annotation types, and rendered otherwise. -/
theorem a_unit_goes_through_its_stages {W : Type} (config : RunConfig) (sink : Sink (StateM W))
    (dest : Destination (StateM W)) (held : W → τ)
    (hapart : (Setup.mk config .csharp sink).Separates dest held) (bindings : Bindings)
    (u : SourceUnit) (w : W) :
    let setup : Setup (StateM W) := ⟨config, .csharp, sink⟩
    ∃ result bound w', (setup.process dest bindings u).run w = ((result, bound), w') ∧
      (u.errors ≠ [] ∧ config.ignoreErrors = false →
        result = .error (.aborted u.path u.errors.length) ∧ bound = bindings ∧
        held w' = held w ∧
        ∀ text, setup.LinesOn dest text → text w' = text w ++ linesText u.errors) ∧
      (∀ cause, result = .error (.internal cause) → held w' = held w) ∧
      (∀ report, result = .ok report →
        report.problems = u.errors ++ (u.recast bindings).warnings.map (·.problem u.path) ∧
        ∃ w₁, held w' = held w₁ ∧ (Suppressed sink.store u bindings bound report w w₁ ∨
          Rendered config sink.store dest u bindings report w w₁)) := by
  intro setup
  have halike := hapart.process bindings u w w rfl
  rcases hrun : (setup.process dest bindings u).run w with ⟨⟨result, bound⟩, w'⟩
  rcases hquiet : (setup.quiet.process dest bindings u).run w with ⟨⟨result', bound'⟩, w₁⟩
  rw [hrun, hquiet] at halike
  obtain ⟨hsame, hheld⟩ := halike
  cases hsame
  have hheld : held w' = held w₁ := hheld
  have hcases := Setup.quiet_process_cases hquiet
  refine ⟨result, bound, w', rfl, ?_, ?_, ?_⟩
  · rintro ⟨herrors, hignore⟩
    have hrefuses : setup.refuses u = true := Setup.refuses_of_errors hignore herrors
    rw [Setup.prepared_of_refuses hrefuses] at hcases
    rcases hcases with ⟨e, hp, hresult, hsame⟩ | ⟨pending, hp, _⟩
    · cases hp
      refine ⟨hresult, rfl, hheld.trans (congrArg held hsame), ?_⟩
      intro text hlines
      have htext := hlines.process_of_refuses hrefuses bindings w
      rw [hrun] at htext
      exact htext
    · cases hp
  · rintro cause rfl
    rcases hcases with ⟨e, _, _, hsame⟩ | ⟨pending, _, hemit⟩
    · exact hheld.trans (congrArg held hsame)
    · have hfatal := Setup.emit_not_fatal hemit
      cases hfatal
  · rintro report rfl
    rcases hcases with ⟨e, _, hresult, _⟩ | ⟨pending, hp, hemit⟩
    · cases hresult
    · obtain ⟨hproblems, hstages⟩ := Setup.emit_stages hp hemit
      exact ⟨hproblems, w₁, hheld, hstages⟩

/-- A class is processed, and its text goes to a buffer. -/
def classRun : (Except RunError Report × Bindings) × World String String :=
  ((World.setup ⟨"// header\n", false, true, .fail⟩ .csharp .buffer .nowhere).process
    (Destination.stream .buffer).onRest .empty (.ofClass "A" "A" [.lossyField])).run ⟨"", ""⟩

theorem a_class_is_rendered_behind_the_header :
    classRun.2.rest = "// header\nclass A\n\x7b\n" ++
      "    T f = default /* untranslated: anonymous T */;\n\x7d\n" ∧
    ∃ report w₁, classRun.1.1 = .ok report ∧
      report.problems = [⟨.warning, "anonymous class of 'T' is not supported", "A", 1, 0, 1⟩] ∧
      classRun.2.rest = w₁.rest ∧
      Rendered ⟨"// header\n", false, true, .fail⟩ MarkerStore.nowhere.onRest
        (Destination.stream .buffer).onRest (.ofClass "A" "A" [.lossyField]) .empty report ⟨"", ""⟩
        w₁ := by
  obtain ⟨result, bound, w', hrun, _, _, hreport⟩ := a_unit_goes_through_its_stages
    ⟨"// header\n", false, true, .fail⟩
    (World.setup ⟨"// header\n", false, true, .fail⟩ .csharp .buffer .nowhere).sink
    (Destination.stream .buffer).onRest World.rest (World.separates _ _ _ _ _) .empty
    (.ofClass "A" "A" [.lossyField]) (⟨"", ""⟩ : World String String)
  have hclass : classRun = ((result, bound), w') := hrun
  refine ⟨by decide +kernel, ?_⟩
  have hok : classRun.1.1.isOk = true := by decide +kernel
  cases hresult : result with
  | error e =>
    rw [hclass, hresult] at hok
    cases hok
  | ok report =>
    obtain ⟨hproblems, w₁, hrest, hend⟩ := hreport report hresult
    refine ⟨report, w₁, by rw [hclass, hresult], hproblems, ?_, ?_⟩
    · rw [hclass]
      exact hrest
    · rcases hend with hsuppressed | hrendered
      · exact absurd (hsuppressed.annotations _ (List.mem_singleton.mpr rfl)) (by decide)
      · exact hrendered

end Recast
