-- Units are read back from their JSON form: from the text of a source unit or
-- a target unit without float literals the unit is read again.
import Recast.FrontEnd
import Recast.Form.Target
import Recast.Proofs.Form.Body

namespace Recast

namespace Form

open Json.Reader
open Recast.Json (depth itemsDepth fieldsDepth)

/-! ## Optional parts -/

theorem carries_optText (s : Option String) : Carries (nullable text) (.ofOption .text s) s :=
  carries_ofOption fun s _ => ⟨carries_text s, by simp⟩

theorem carries_optTypeRef (t : Option TypeRef) :
    Carries (nullable typeRef) (.ofOption writeTypeRef t) t :=
  carries_ofOption fun t _ => ⟨carries_typeRef t, writeTypeRef_ne_null t⟩

theorem carries_init {init : Option Expr} (h : init.toList.all (·.all Expr.notFloat) = true) :
    Carries (nullable expr) (.ofOption writeExpr init) init := by
  rw [← writeOptExpr_eq]
  exact carries_optExpr h

theorem carries_body {body : Option (List Stmt)}
    (h : (optStmtExprs body).all (·.all Expr.notFloat) = true) :
    Carries (nullable (list stmt)) (.ofOption (fun body => .array (writeStmts body)) body) body :=
  carries_ofOption fun ss hss => ⟨carries_stmts (by simpa [hss, optStmtExprs] using h), by simp⟩

theorem carries_texts (ss : List String) : Carries (list text) (.array (ss.map .text)) ss :=
  carries_list fun s _ => carries_text s

/-! ## Problems -/

theorem carries_severity (s : Severity) : Carries severity (.text s.text) s :=
  carries_oneOf (by cases s <;> rfl)

theorem carries_path (p : Path) : Carries path (.text p.text) p := (carries_text p.text).map

seal Json.Reader.record

theorem carries_problem (p : Problem) : Carries problem (writeProblem p) p :=
  carries_record (by simp)
    (.required (carries_severity _) rfl (.required (carries_text _) rfl
      (.defaulted (carries_path _) rfl (.required (carries_uint32 _) rfl
        (.defaulted (carries_uint64 _) rfl (.defaulted (carries_uint64 _) rfl .pure))))))

/-! ## Source units -/

section

open Source

theorem carries_sourceKind (kind : TypeKind) :
    Carries (oneOf sourceKinds) (.text (tagOf sourceKinds kind)) kind :=
  carries_oneOf (by cases kind <;> rfl)

theorem carries_modifiers (ms : List Modifier) :
    Carries (list (oneOf modifiers)) (writeModifiers ms) ms :=
  carries_list fun m _ => carries_oneOf (by cases m <;> rfl)

theorem carries_sourceParam (p : Param) : Carries sourceParam (writeSourceParam p) p :=
  carries_record (by simp)
    (.required (carries_text _) rfl (.required (carries_typeRef _) rfl .pure))

theorem carries_field {d : FieldDecl} (hd : d.init.toList.all (·.all Expr.notFloat) = true) :
    Carries field (writeField d) d :=
  carries_record (by simp)
    (.required (carries_text _) rfl (.required (carries_typeRef _) rfl
      (.defaulted (carries_modifiers _) rfl (.optional (carries_init hd) rfl
        (.defaulted (carries_span _) rfl .pure)))))

theorem carries_method {d : MethodDecl}
    (hd : (optStmtExprs d.body).all (·.all Expr.notFloat) = true) :
    Carries method (writeMethod d) d :=
  carries_record (by simp)
    (.required (carries_text _) rfl
      (.defaulted (carries_list fun p _ => carries_sourceParam p) rfl
        (.optional (carries_optTypeRef _) rfl (.defaulted (carries_modifiers _) rfl
          (.optional (carries_body hd) rfl (.defaulted (carries_span _) rfl .pure))))))

mutual

theorem carries_sourceTypeDeep (d : TypeDecl) (hd : d.exprs.all (·.all Expr.notFloat) = true)
    (deep : Nat) (hdeep : (writeSourceType d).depth ≤ deep) :
    Carries (sourceTypeDeep deep) (writeSourceType d) d := by
  obtain ⟨name, kind, mods, base, interfaces, constants, members, span⟩ := d
  simp only [writeSourceType, depth, fieldsDepth] at hdeep
  obtain ⟨deep, rfl⟩ : ∃ k, deep = k + 1 := ⟨deep - 1, by omega⟩
  have hmembers := carries_sourceMembersDeep members hd deep (by omega)
  rw [writeSourceType, sourceTypeDeep]
  exact carries_record (by simp)
    (.required (carries_text name) rfl (.required (carries_sourceKind kind) rfl
      (.defaulted (carries_modifiers mods) rfl (.optional (carries_optTypeRef base) rfl
        (.defaulted (carries_typeRefs interfaces) rfl (.defaulted (carries_texts constants) rfl
          (.defaulted hmembers rfl (.defaulted (carries_span span) rfl .pure))))))))

theorem carries_sourceMemberDeep (m : Member) (hm : m.exprs.all (·.all Expr.notFloat) = true)
    (deep : Nat) (hdeep : (writeSourceMember m).depth ≤ deep) :
    Carries (sourceMemberWith (sourceTypeDeep deep)) (writeSourceMember m) m := by
  cases m with
  | field d =>
    rw [writeSourceMember]
    exact carries_tagged (fun _ _ => rfl) (carries_field hm).map
  | method d =>
    rw [writeSourceMember]
    exact carries_tagged (fun _ _ => rfl) (carries_method hm).map
  | constructor d =>
    rw [writeSourceMember]
    exact carries_tagged (fun _ _ => rfl) (carries_method hm).map
  | type d =>
    rw [writeSourceMember, Json.tagged, depth, fieldsDepth] at hdeep
    have hnested := carries_sourceTypeDeep d hm deep (by omega)
    rw [writeSourceMember]
    exact carries_tagged (fun _ _ => rfl) hnested.map

theorem carries_sourceMembersDeep (ms : List Member)
    (hms : (memberExprs ms).all (·.all Expr.notFloat) = true) (deep : Nat)
    (hdeep : itemsDepth (writeSourceMembers ms) ≤ deep) :
    Carries (list (sourceMemberWith (sourceTypeDeep deep)))
      (.array (writeSourceMembers ms)) ms := by
  cases ms with
  | nil => exact carries_nil
  | cons m ms =>
    rw [memberExprs, List.all_append, Bool.and_eq_true] at hms
    rw [writeSourceMembers, itemsDepth] at hdeep
    rw [writeSourceMembers]
    exact (carries_sourceMemberDeep m hms.1 deep (by omega)).cons
      (carries_sourceMembersDeep ms hms.2 deep (by omega))

end

theorem carries_sourceType {d : TypeDecl} (hd : d.exprs.all (·.all Expr.notFloat) = true) :
    Carries sourceType (writeSourceType d) d :=
  carries_of_deep sourceTypeDeep (carries_sourceTypeDeep d hd)

theorem carries_sourceUnit {u : SourceUnit} (hu : u.exprs.all (·.all Expr.notFloat) = true) :
    Carries sourceUnit (writeSourceUnit u) u := by
  rw [SourceUnit.exprs, List.all_flatMap, List.all_eq_true] at hu
  exact carries_record (by simp)
    (.defaulted (carries_path _) rfl (.optional (carries_optText _) rfl
      (.defaulted (carries_texts _) rfl
        (.defaulted (carries_list fun d hd => carries_sourceType (hu d hd)) rfl
          (.defaulted (carries_list fun p _ => carries_problem p) rfl .pure)))))

end

/-! ## Target units -/

section

open Target

theorem carries_targetKind (kind : TypeKind) :
    Carries (oneOf targetKinds) (.text (tagOf targetKinds kind)) kind :=
  carries_oneOf (by cases kind <;> rfl)

theorem carries_targetParam (p : Param) : Carries targetParam (writeTargetParam p) p :=
  carries_record (by simp)
    (.required (carries_text _) rfl (.required (carries_typeRef _) rfl .pure))

theorem carries_targetParams (ps : List Param) :
    Carries (list targetParam) (.array (ps.map writeTargetParam)) ps :=
  carries_list fun p _ => carries_targetParam p

mutual

theorem carries_targetTypeDeep (d : TypeDecl) (hd : d.exprs.all (·.all Expr.notFloat) = true)
    (deep : Nat) (hdeep : (writeTargetType d).depth ≤ deep) :
    Carries (targetTypeDeep deep) (writeTargetType d) d := by
  obtain ⟨name, kind, mods, bases, constants, members⟩ := d
  simp only [writeTargetType, depth, fieldsDepth] at hdeep
  obtain ⟨deep, rfl⟩ : ∃ k, deep = k + 1 := ⟨deep - 1, by omega⟩
  have hmembers := carries_targetMembersDeep members hd deep (by omega)
  rw [writeTargetType, targetTypeDeep]
  exact carries_record (by simp)
    (.required (carries_text name) rfl (.required (carries_targetKind kind) rfl
      (.required (carries_texts mods) rfl (.required (carries_typeRefs bases) rfl
        (.required (carries_texts constants) rfl (.required hmembers rfl .pure))))))

theorem carries_targetMemberDeep (m : Member) (hm : m.exprs.all (·.all Expr.notFloat) = true)
    (deep : Nat) (hdeep : (writeTargetMember m).depth ≤ deep) :
    Carries (targetMemberWith (targetTypeDeep deep)) (writeTargetMember m) m := by
  cases m with
  | field name ty mods init =>
    rw [writeTargetMember]
    exact carries_tagged (fun _ _ => rfl) (carries_record (by simp)
      (.required (carries_text name) rfl (.required (carries_typeRef ty) rfl
        (.required (carries_texts mods) rfl (.nullable (carries_init hm) rfl .pure)))))
  | method name params returnType mods body =>
    rw [writeTargetMember]
    exact carries_tagged (fun _ _ => rfl) (carries_record (by simp)
      (.required (carries_text name) rfl (.required (carries_targetParams params) rfl
        (.nullable (carries_optTypeRef returnType) rfl (.required (carries_texts mods) rfl
          (.nullable (carries_body hm) rfl .pure))))))
  | constructor name params mods body =>
    rw [writeTargetMember]
    exact carries_tagged (fun _ _ => rfl) (carries_record (by simp)
      (.required (carries_text name) rfl (.required (carries_targetParams params) rfl
        (.required (carries_texts mods) rfl (.required (carries_stmts hm) rfl .pure)))))
  | type d =>
    rw [writeTargetMember, Json.tagged, depth, fieldsDepth] at hdeep
    have hnested := carries_targetTypeDeep d hm deep (by omega)
    rw [writeTargetMember]
    exact carries_tagged (fun _ _ => rfl) hnested.map
  | placeholder note =>
    rw [writeTargetMember]
    exact carries_tagged (fun _ _ => rfl) (carries_text note).map

theorem carries_targetMembersDeep (ms : List Member)
    (hms : (memberExprs ms).all (·.all Expr.notFloat) = true) (deep : Nat)
    (hdeep : itemsDepth (writeTargetMembers ms) ≤ deep) :
    Carries (list (targetMemberWith (targetTypeDeep deep)))
      (.array (writeTargetMembers ms)) ms := by
  cases ms with
  | nil => exact carries_nil
  | cons m ms =>
    rw [memberExprs, List.all_append, Bool.and_eq_true] at hms
    rw [writeTargetMembers, itemsDepth] at hdeep
    rw [writeTargetMembers]
    exact (carries_targetMemberDeep m hms.1 deep (by omega)).cons
      (carries_targetMembersDeep ms hms.2 deep (by omega))

end

theorem carries_targetType {d : TypeDecl} (hd : d.exprs.all (·.all Expr.notFloat) = true) :
    Carries targetType (writeTargetType d) d :=
  carries_of_deep targetTypeDeep (carries_targetTypeDeep d hd)

theorem carries_targetUnit {u : TargetUnit} (hu : u.exprs.all (·.all Expr.notFloat) = true) :
    Carries targetUnit (writeTargetUnit u) u := by
  rw [TargetUnit.exprs, List.all_flatMap, List.all_eq_true] at hu
  have hcarries : Carries targetUnit (writeTargetUnit u)
      { u with usings := .ofList u.usings.names } :=
    carries_record (by simp)
      (.required (carries_path _) rfl (.nullable (carries_optText _) rfl
        (.required (carries_texts _) rfl
          (.required (carries_list fun d hd => carries_targetType (hu d hd)) rfl
            (.required (carries_bool _) rfl .pure)))))
  rwa [Text.NameSet.ofList_names] at hcarries

end

end Form

/-! ## Reading units -/

/-- A unit that leaves no path open is the same wherever it was read. -/
theorem SourceUnit.located_eq {u : SourceUnit} (hpath : u.path.isEmpty = false)
    (hproblems : ∀ p ∈ u.problems, p.path.isEmpty = false) (file : Path) :
    u.located file = u := by
  have hsame : u.problems.map (fun p => if p.path.isEmpty then { p with path := u.path } else p) =
      u.problems := by
    refine (List.map_congr_left fun p hp => ?_).trans (List.map_id _)
    rw [hproblems p hp]
    rfl
  simp only [located, hpath, Bool.false_eq_true, if_false, hsame]

/-- From the text of its form each unit is read again, if it has no float
literals and the form has at most 127 containers in each other. The name of the
file counts only where a unit leaves a path open. -/
theorem units_are_read_back_from_their_texts :
    (∀ u : SourceUnit, u.exprs.all (·.all Expr.notFloat) = true →
      (Form.writeSourceUnit u).depth ≤ 127 →
        Json.read? Form.sourceUnit (Form.writeSourceUnit u).print = some u ∧
          (u.path.isEmpty = false → (∀ p ∈ u.problems, p.path.isEmpty = false) →
            ∀ explain file, SourceUnit.read explain file (Form.writeSourceUnit u).print = .ok u)) ∧
      ∀ u : TargetUnit, u.exprs.all (·.all Expr.notFloat) = true →
        (Form.writeTargetUnit u).depth ≤ 127 →
          Json.read? Form.targetUnit (Form.writeTargetUnit u).print = some u := by
  refine ⟨fun u hu hdepth => ?_, fun u hu hdepth => ?_⟩
  · have hread := Json.read?_of_carries (Form.carries_sourceUnit hu) hdepth
    refine ⟨hread, fun hpath hproblems explain file => ?_⟩
    simp only [SourceUnit.read, hread, SourceUnit.located_eq hpath hproblems]
  · exact Json.read?_of_carries (Form.carries_targetUnit hu) hdepth

/-- Two ways out of a body, one with a call that is not bound. -/
def waysOut : List Stmt :=
  [.labeled "außen" (.whileLoop (.literal (.bool true)) .breakLoop) Span.none,
    .ifElse (.ident "早") (.returns none) none,
    .returns (some (.call none "größe" none [.literal (.string "\"\n→"), .literal .null]))]

/-- The form leaves out the arguments and dimensions of a plain type and the
binding of a call without one. -/
theorem a_unit_with_open_calls_is_read_back :
    let list : TypeRef := ⟨"List", [⟨"Größe", [], 0⟩], 2⟩
    let u : SourceUnit :=
      ⟨⟨"a/Ä.java"⟩, none, ["java.util.List"],
        [⟨"Ä", .classType, [.pub, .final], none, [list], [],
          [.method ⟨"m", [⟨"x", list⟩], some list, [.static], some waysOut, Span.none⟩,
            .type (.empty "Inner" .annotationType)], Span.none⟩],
        [⟨.warning, "früh", ⟨"b.java"⟩, 3, 1, 2⟩]⟩
    let t : TargetUnit :=
      ⟨⟨"a/Ä.cs"⟩, some "a", ⟨["System", "System.Linq"], by decide⟩,
        [⟨"Ä", .classType, ["public"], [list], [],
          [.constructor "Ä" [⟨"x", list⟩] [] waysOut, .placeholder "…"]⟩], false⟩
    SourceUnit.read id ⟨"elsewhere.json"⟩ (Form.writeSourceUnit u).print = .ok u ∧
      Json.read? Form.targetUnit (Form.writeTargetUnit t).print = some t := by
  intro list u t
  have hu := units_are_read_back_from_their_texts.1 u (by decide) (by decide)
  exact ⟨hu.2 (by decide) (by decide) id ⟨"elsewhere.json"⟩,
    units_are_read_back_from_their_texts.2 t (by decide) (by decide)⟩

end Recast
