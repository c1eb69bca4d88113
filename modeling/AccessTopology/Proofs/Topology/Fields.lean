import AccessTopology.Proofs.Draft.Document
import AccessTopology.Proofs.Topology.Content

namespace AccessTopology

/-!
# Fields of declarations

What a declaration gives its draft to hold is written with the names of every
object in order, and its numbers, if any, are integers.
-/

theorem CustomerPolicy.plain_toJson (policy : CustomerPolicy) :
    policy.toJson.Plain :=
  .pair (by decide) (.string policy.name) (.string policy.path)

theorem User.plain_nameParts (user : User) :
    (Json.ofMap user.nameParts).Plain := by
  refine .ofMap ?_
  intro entry listed
  rcases List.mem_append.mp (KeyMap.mem_entries_ofList listed) with
    given | family
  · exact .of_mem_optional given
  · exact .of_mem_optional family

namespace Declaration

variable {scope : Scope} {observations : Observations}
  {declaration : Declaration}

/-- Every field that a declaration gives its draft is plain. -/
theorem plain_of_mem_fields
    {field : String × Json}
    (listed : field ∈ declaration.fields scope) :
    field.2.Plain := by
  cases declaration with
  | group declared =>
      rcases List.mem_cons.mp listed with rfl | isDescription
      · exact .string _
      · exact .of_mem_optional isDescription
  | user declared =>
      simp only [fields, List.mem_append] at listed
      obtain (isText | isName) | isEmail := listed
      · simp only [List.mem_cons, List.not_mem_nil, or_false] at isText
        obtain rfl | rfl := isText <;> exact .string _
      · split at isName
        · cases isName
        · rw [List.mem_singleton.mp isName]
          exact declared.plain_nameParts
      · simp only [Option.mem_toList, Option.map_eq_some_iff] at isEmail
        obtain ⟨email, _, rfl⟩ := isEmail
        refine .array (List.forall_mem_singleton.mpr ?_)
        exact .pair (by decide) (.bool true) (.string email)
  | membership member container =>
      cases listed
  | permissionSet set =>
      simp only [fields, List.mem_append] at listed
      obtain (isText | isDescription) | isRelayState := listed
      · simp only [List.mem_cons, List.not_mem_nil, or_false] at isText
        obtain rfl | rfl := isText <;> exact .string _
      · exact .of_mem_optional isDescription
      · exact .of_mem_optional isRelayState
  | inlinePolicy set document =>
      rw [List.mem_singleton.mp listed]
      exact .string document
  | managedPolicy set arn =>
      rw [List.mem_singleton.mp listed]
      exact .string arn
  | customerPolicy set policy =>
      rw [List.mem_singleton.mp listed]
      exact policy.plain_toJson
  | assignment binding =>
      simp only [fields, List.mem_cons, List.not_mem_nil, or_false] at listed
      obtain rfl | rfl | rfl := listed <;> exact .string _

theorem plain_compiled :
    (declaration.compiled scope observations).Plain := by
  intro field held
  rcases List.mem_cons.mp (KeyMap.mem_entries_ofList held) with
    rfl | inFields
  · exact .string _
  · exact plain_of_mem_fields inFields

end Declaration

end AccessTopology
