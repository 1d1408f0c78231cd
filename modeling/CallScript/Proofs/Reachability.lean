import CallScript.Proofs.LogProtocol

/-!
# Which registered methods a script can call

A registry and a script have different notions of a name. A registry takes a letter or an underscore
followed by letters, digits and underscores, and allows for one line feed at the end
(`Registry.isMethodName_iff`). To a script the keyword is no such name, and a line feed never
belongs to a name. So a method can be registered that no script can call: under the keyword itself,
and under any name with a line feed (`exists_coreCall_iff`).

All other registered methods can be called. The shortest source text that calls one is read as that
one call (`parseSource_callSource_iff`), and interpreting it invokes the registered method once,
without arguments (`Interpreter.perform_callNode`).
-/

namespace CallScript

open CallScript.Action

variable {invoke : Invoke} {i : Nat} {s : Session}

/-! ## Names of registered methods -/

namespace Registry

/-- **Registries and scripts start names alike.** -/
theorem isNameStart_eq (c : Char) : isNameStart c = Lexer.isNameStart c := by
  unfold isNameStart Lexer.isNameStart
  rw [Bool.or_comm (decide ('A' ≤ c) && decide (c ≤ 'Z'))]

/-- **Registries and scripts continue names alike.** -/
theorem isNameChar_eq (c : Char) : isNameChar c = Lexer.isNameChar c := by
  have hstart := isNameStart_eq c
  unfold isNameStart at hstart
  unfold isNameChar Lexer.isNameChar Binary64.isBasicDigit
  rw [← hstart, Bool.or_right_comm]

/-- Whether a text is a name: an identifier, or the keyword. -/
def isName : List Char → Bool
  | [] => false
  | c :: rest => isNameStart c && rest.all isNameChar

theorem isMethodName_eq (cs : List Char) :
    isMethodName cs = isName (if cs.getLast? = some '\n' then cs.dropLast else cs) := by
  unfold isMethodName
  generalize (if cs.getLast? = some '\n' then cs.dropLast else cs) = name
  cases name <;> rfl

theorem isName_iff {cs : List Char} :
    isName cs = true ↔ Script.isIdentifier cs = true ∨ cs = ['c', 'o', 'r', 'e'] := by
  cases cs with
  | nil => simp [isName, Script.isIdentifier]
  | cons c rest =>
    rw [isName, Script.isIdentifier, isNameStart_eq, funext isNameChar_eq, Bool.and_eq_true,
      Bool.and_eq_true, Bool.and_eq_true, decide_eq_true_eq]
    by_cases hcore : c :: rest = ['c', 'o', 'r', 'e']
    · obtain ⟨rfl, rfl⟩ := List.cons.inj hcore
      decide
    · simp [hcore]

theorem isNameChar_of_isName {cs : List Char} (h : isName cs = true) :
    ∀ c ∈ cs, Lexer.isNameChar c = true := by
  cases cs with
  | nil => exact fun c hc => absurd hc List.not_mem_nil
  | cons c rest =>
    rw [isName, isNameStart_eq, funext isNameChar_eq, Bool.and_eq_true] at h
    exact Lexer.isNameChar_of_mem h.1 h.2

/-- **The names that a registry takes** are the identifiers and the keyword, each with or without a
line feed after it. -/
theorem isMethodName_iff {cs : List Char} : isMethodName cs = true ↔
    ∃ name, (Script.isIdentifier name = true ∨ name = ['c', 'o', 'r', 'e']) ∧
      (cs = name ∨ cs = name ++ ['\n']) := by
  simp only [← isName_iff]
  rw [isMethodName_eq]
  constructor
  · intro h
    by_cases hlast : cs.getLast? = some '\n'
    · rw [if_pos hlast] at h
      exact ⟨cs.dropLast, h, .inr (List.dropLast_append_getLast? '\n' hlast).symm⟩
    · rw [if_neg hlast] at h
      exact ⟨cs, h, .inl rfl⟩
  · rintro ⟨name, hname, rfl | rfl⟩
    · have hlast : cs.getLast? ≠ some '\n' := by
        intro hlast
        have hbreak := isNameChar_of_isName hname '\n' (List.mem_of_getLast? hlast)
        revert hbreak
        decide
      rwa [if_neg hlast]
    · rwa [if_pos (by simp), List.dropLast_concat]

/-- **What registering a method does**: the method is found under its name. -/
theorem exists_name_of_add {r r' : Registry} {methodsOf : Nat → List Scalar}
    {name method description : Value} (h : r.add methodsOf name method description = .ok r') :
    ∃ n, name.text? = some n ∧ isMethodName n.toList = true ∧
      r'.methods.get? (.text n) = some method := by
  unfold add at h
  cases name with
  | scalar key =>
    rw [validateName] at h
    by_cases hkey : isMethodKey key = true
    · rw [dif_pos hkey] at h
      dsimp only at h
      by_cases hmethod : method.isCallable = true
      · rw [dif_pos hmethod] at h
        obtain rfl := Except.ok.inj h
        obtain ⟨n, htext, hname⟩ := isMethodKey_iff.mp hkey
        have hsame : Key.same key (.text n) = true := by
          cases key <;> cases htext <;> simp [Key.same, Scalar.sameKey, Scalar.keyForm?]
        exact ⟨n, htext, hname, by rw [enter, Table.get?_insert, if_pos hsame]⟩
      · rw [dif_neg hmethod] at h
        cases h
    · rw [dif_neg hkey] at h
      cases h
  | _ => cases h

end Registry

/-! ## Calls of core methods -/

/-- The source text of a call of a core method without arguments. -/
def callSource (name : String) : String := "core." ++ name ++ "();"

/-- The program that is one call of a core method without arguments. -/
def callNode (name : String) : Node :=
  ⟨.program, .null, [⟨.call, .null, [⟨.core, .text "core", []⟩, ⟨.method, .text name, []⟩]⟩]⟩

/-- A script calls core methods by identifiers. -/
theorem isIdentifier_of_reads {c : Script.Call} {name : String}
    {arguments : List Calling.Argument} (h : Calling.Reads c.node (.core name) arguments) :
    Script.isIdentifier name.toList = true := by
  obtain ⟨target, method, argument⟩ := c
  cases target with
  | core =>
    cases h with
    | core hmethod harguments =>
      obtain rfl := Option.some.inj hmethod
      exact method.property
  | object x => cases h
  | direct => cases h

/-- **The core methods that a script can call** are those under an identifier. -/
theorem exists_coreCall_iff {name : String} :
    (∃ source program node arguments, parseSource source = .ok program ∧
      node ∈ program.children ∧ Calling.Reads node (.core name) arguments) ↔
    Script.isIdentifier name.toList = true := by
  constructor
  · rintro ⟨source, program, node, arguments, hparse, hnode, hreads⟩
    obtain ⟨calls, rfl⟩ := Script.exists_tree_of_parseSource hparse
    obtain ⟨c, -, rfl⟩ := List.mem_map.mp hnode
    exact isIdentifier_of_reads hreads
  · intro h
    exact ⟨_, _, _, [], Script.parseSource_source [⟨.core, ⟨name, h⟩, none⟩], List.mem_cons_self,
      .core rfl .nil⟩

/-- **A call of a core method is read as such** if the name of the method is an identifier, and only
then. -/
theorem parseSource_callSource_iff {name : String} :
    parseSource (callSource name) = .ok (callNode name) ↔
      Script.isIdentifier name.toList = true := by
  constructor
  · intro h
    exact exists_coreCall_iff.mp
      ⟨_, _, _, [], h, List.mem_cons_self, .core rfl .nil⟩
  · intro h
    have hsource : Script.source [⟨.core, ⟨name, h⟩, none⟩] = callSource name := by
      rw [← String.toList_inj, callSource, String.toList_append, String.toList_append]
      simp [Script.source, Script.Call.text, Script.Target.text]
    rw [← hsource]
    exact Script.parseSource_source _

/-- **Interpreting a call of a core method** invokes the method once, without arguments. -/
theorem Interpreter.perform_callNode {name : String} {method : Value}
    (h : (s.coreOf i).methods.get? (.text name) = some method) :
    ∃ before : Session, before.unlogged = s.unlogged ∧
      (interpret invoke i (callNode name)).perform s
        = match (invoke method []).perform before with
          | (.ok _, t) => (.ok (), t.log .finished)
          | (.error e, t) => (.error e, Calling.failed ("core." ++ name) e t) := by
  have hmethod : ((s.log .started).coreOf i).methods.get? (.text name) = some method := h
  have hverdict : Calling.verdict (s.log .started) i (.core name) []
      = .invoked ("core." ++ name) method [] := by
    show Calling.Verdict.ofTarget (s.log .started) i []
      (Calling.Callee.target (s.log .started) i (.core name)) = _
    rw [Calling.Callee.target, hmethod]
    rfl
  refine ⟨(Dispatch.traced i (s.log .started) ("core." ++ name) method []).session, ?_, ?_⟩
  · exact (Session.unlogged_logIf _ _ _).trans (s.unlogged_log _)
  · rw [perform_interpret, callNode, evaluateAll, perform_bind,
      Calling.perform_evaluate (.core rfl .nil), hverdict]
    unfold Calling.Verdict.outcome Dispatch.traced
    dsimp only
    cases (invoke method []).perform _ with
    | mk o t => cases o <;> rfl

/-- **Which registered methods a script can call.** A method can be registered under an identifier
or the keyword, with or without a line feed after it. If its name is an identifier, then the
shortest source text that calls it is read as that call; otherwise that text is read as something
else or not at all, and no program whatever calls a core method of that name. A program that is such
a call invokes the registered method once and without arguments, in the session at hand but for the
log. -/
theorem registered_method_callable_iff (r r' : Registry) (methodsOf : Nat → List Scalar)
    (name method description : Value) (h : r.add methodsOf name method description = .ok r') :
    ∃ n : String, name.text? = some n ∧
      (∃ m : String, (Script.isIdentifier m.toList = true ∨ m = "core") ∧ (n = m ∨ n = m ++ "\n")) ∧
      (parseSource (callSource n) = .ok (callNode n) ↔ Script.isIdentifier n.toList = true) ∧
      ((∃ source program node arguments, parseSource source = .ok program ∧
          node ∈ program.children ∧ Calling.Reads node (.core n) arguments) ↔
        Script.isIdentifier n.toList = true) ∧
      ∀ (invoke : Invoke) (i : Nat) (s : Session), s.coreOf i = r' →
        ∃ before : Session, before.unlogged = s.unlogged ∧
          (Interpreter.interpret invoke i (callNode n)).perform s
            = match (invoke method []).perform before with
              | (.ok _, t) => (.ok (), t.log .finished)
              | (.error e, t) => (.error e, Calling.failed ("core." ++ n) e t) := by
  obtain ⟨n, hname, hmethodName, hmethod⟩ := Registry.exists_name_of_add h
  refine ⟨n, hname, ?_, parseSource_callSource_iff, exists_coreCall_iff, fun invoke i s hs => ?_⟩
  · obtain ⟨m, hm, hn⟩ := Registry.isMethodName_iff.mp hmethodName
    refine ⟨String.ofList m, ?_, ?_⟩
    · rw [String.toList_ofList]
      exact hm.imp_right fun hcore => by rw [hcore]
    · simp only [← String.toList_inj, String.toList_append, String.toList_ofList]
      exact hn
  · refine Interpreter.perform_callNode ?_
    rw [hs]
    exact hmethod

/-- A method to register. -/
def sayMethod : Value := .method ⟨0, "say", false, none⟩

/-- A method that is registered under an identifier can be called. -/
theorem say_is_callable :
    ∃ r : Registry, Registry.add {} Value.noRegistries (.text "say") sayMethod .null = .ok r ∧
      parseSource "core.say();" = .ok (callNode "say") ∧
      ∀ (invoke : Invoke) (s : Session), s.coreOf 0 = r → ∃ before : Session,
        before.unlogged = s.unlogged ∧
        (Interpreter.interpret invoke 0 (callNode "say")).perform s
          = match (invoke sayMethod []).perform before with
            | (.ok _, t) => (.ok (), t.log .finished)
            | (.error e, t) => (.error e, Calling.failed "core.say" e t) := by
  refine ⟨_, rfl, ?_⟩
  obtain ⟨n, hname, -, hparse, -, hinterpret⟩ := registered_method_callable_iff {} _
    Value.noRegistries (.text "say") sayMethod .null rfl
  obtain rfl := Option.some.inj hname
  exact ⟨hparse.mpr (by decide), fun invoke s hs => hinterpret invoke 0 s hs⟩

/-- Methods can be registered under the keyword and under a name with a line feed, but calls of them
are not read as such. -/
theorem keyword_and_lineFeed_not_callable :
    (∃ r : Registry, Registry.add {} Value.noRegistries (.text "core") sayMethod .null = .ok r) ∧
      parseSource "core.core();" ≠ .ok (callNode "core") ∧
    (∃ r : Registry, Registry.add {} Value.noRegistries (.text "a\n") sayMethod .null = .ok r) ∧
      parseSource "core.a\n();" ≠ .ok (callNode "a\n") := by
  refine ⟨⟨_, rfl⟩, fun h => ?_, ⟨_, rfl⟩, fun h => ?_⟩
  · have hidentifier := (@parseSource_callSource_iff "core").mp h
    revert hidentifier
    decide
  · have hidentifier := (@parseSource_callSource_iff "a\n").mp h
    revert hidentifier
    decide

end CallScript
