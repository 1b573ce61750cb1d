import AccessControl.Proofs.Documents.Response

namespace AccessControl

namespace Json

theorem read_text {α : Type} {decode : Json → Option α} {j : Json} {a : α} (decoded : decode j = some a)
    (legible : j.Legible fun x => x.isFinite ∧ ReadsBack x) (depth : j.depth ≤ maxNesting) {text : String}
    (written : text ∈ [j.compact, j.pretty]) : (read text).bind decode = some a := by
  have value : read text = some j := by
    simp only [List.mem_cons, List.not_mem_nil, or_false] at written
    rcases written with rfl | rfl
    · exact read_compact legible depth
    · exact read_pretty legible depth
  rw [value, Option.bind_some, decoded]

end Json

/-- What is encoded is decoded again, with every flag, absent field and order. So is what was written as
text, if the reader returns the doubles in it and the document is not nested too deep for it. -/
theorem documents_return :
    (∀ d : PolicyDocument, (∀ x ∈ d.doubles, x.isFinite) →
      PolicyDocument.decode d.encode = some d ∧
      ((∀ x ∈ d.doubles, Json.ReadsBack x) → d.encode.depth ≤ Json.maxNesting →
        ∀ text ∈ [d.encode.compact, d.text], PolicyDocument.read text = some d)) ∧
    ∀ r : Response, (∀ x ∈ r.doubles, x.isFinite) →
      Response.decode r.encode = some r ∧
      ((∀ x ∈ r.doubles, Json.ReadsBack x) → r.encode.depth ≤ Json.maxNesting →
        ∀ text ∈ [r.encode.compact, r.encode.pretty], (Json.read text).bind Response.decode = some r) := by
  constructor
  · intro d finite
    have decoded := d.decode_encode finite
    refine ⟨decoded, fun returned depth text written => ?_⟩
    have legible := d.encode_legible fun x inside => And.intro (finite x inside) (returned x inside)
    exact Json.read_text decoded legible depth written
  · intro r finite
    have decoded := r.decode_encode finite
    refine ⟨decoded, fun returned depth text written => ?_⟩
    have legible := r.encode_legible fun x inside => And.intro (finite x inside) (returned x inside)
    exact Json.read_text decoded legible depth written

theorem Json.readsBack_threeHalves : ReadsBack ⟨0x3ff8000000000000⟩ := by
  have text : (Double.numberText ⟨0x3ff8000000000000⟩).toList = ['1', '.', '5'] := by decide +kernel
  have scaled : (Double.ofNat 15).scale (-1) = some ⟨0x3ff8000000000000⟩ := by
    rw [Double.scale]
    decide +kernel
  have read : readNumber ['1', '.', '5'] = some (signedDouble false ((Double.ofNat 15).scale (-1)), []) := rfl
  rw [ReadsBack, text, read, scaled]
  rfl

theorem Json.readsBack_minusZero : ReadsBack ⟨0x8000000000000000⟩ := by
  have text : (Double.numberText ⟨0x8000000000000000⟩).toList = ['-', '0', '.', '0'] := by decide +kernel
  have scaled : (Double.ofNat 0).scale (-1) = some ⟨0⟩ := by
    rw [Double.scale]
    decide +kernel
  have read :
      readNumber ['-', '0', '.', '0'] = some (signedDouble true ((Double.ofNat 0).scale (-1)), []) := rfl
  rw [ReadsBack, text, read, scaled]
  rfl

theorem documents_return_scores :
    let threeHalves : Value := .double ⟨0x3ff8000000000000⟩
    let minusZero : Value := .double ⟨0x8000000000000000⟩
    let scores : AttributeId := ⟨.subject, "scores", .double, .bag⟩
    let ordered : Bag := ⟨[threeHalves, .integer (-3), threeHalves], true⟩
    let levels : AssignmentRule := ⟨"levels", .literal (.bag ordered)⟩
    let target : Expression := .compare .isIn (.literal (.simple threeHalves)) (.ref scores)
    let scored : Policy := .rule ⟨"scored", some target, none, .permit, [⟨"log", .permit, [levels]⟩]⟩
    let d : PolicyDocument := ⟨[scores], .set ⟨"documents", none, .firstApplicable, []⟩ [scored]⟩
    let leap : Instant := ⟨2016, 12, 31, 23, 59, 60, 500000000, by decide⟩
    let reason : Reason := .obligationFailed "log" (.missingAttribute "subject.scores")
    let r : Response := ⟨.indeterminate .permitOrDeny reason,
      [⟨"log", [⟨"at", .simple (.dateTime leap)⟩, ⟨"level", .simple minusZero⟩]⟩]⟩
    (∀ x ∈ d.doubles, x.isFinite) ∧ (∀ x ∈ d.doubles, Json.ReadsBack x) ∧ d.encode.depth ≤ Json.maxNesting ∧
      PolicyDocument.read d.text = some d ∧
      (∀ x ∈ r.doubles, x.isFinite) ∧ (∀ x ∈ r.doubles, Json.ReadsBack x) ∧ r.encode.depth ≤ Json.maxNesting ∧
      (Json.read r.encode.compact).bind Response.decode = some r := by
  intro threeHalves minusZero scores ordered levels target scored d leap reason r
  have inDocument : d.doubles = List.replicate 3 ⟨0x3ff8000000000000⟩ := rfl
  have inResponse : r.doubles = [⟨0x8000000000000000⟩] := rfl
  have finite : ∀ x ∈ d.doubles, x.isFinite := by
    rw [inDocument]
    decide
  have returned : ∀ x ∈ d.doubles, Json.ReadsBack x := by
    intro x inside
    rw [inDocument] at inside
    rw [List.eq_of_mem_replicate inside]
    exact Json.readsBack_threeHalves
  have finite' : ∀ x ∈ r.doubles, x.isFinite := by
    rw [inResponse]
    decide
  have returned' : ∀ x ∈ r.doubles, Json.ReadsBack x := by
    rw [inResponse]
    exact List.forall_mem_singleton.mpr Json.readsBack_minusZero
  have depth : d.encode.depth ≤ Json.maxNesting := by decide
  have depth' : r.encode.depth ≤ Json.maxNesting := by decide
  have document := (documents_return.1 d finite).2 returned depth
  have response := (documents_return.2 r finite').2 returned' depth'
  exact ⟨finite, returned, depth, document _ (by simp), finite', returned', depth', response _ (by simp)⟩

end AccessControl
