import AccessTopology.Proofs.Identity.Lowercase
import AccessTopology.Proofs.Identity.ReadingBack
import AccessTopology.Proofs.Identity.Spelling
import AccessTopology.Proofs.Text.Runs
import AccessTopology.Proofs.Text.Search

namespace AccessTopology

/-!
# The normal form of slugs and keys

A slug is the words of a name, which are the runs of letters and digits of the
lowercased name, joined by single hyphens.  A key is the slug of its kind's
prefix and its names together, so making a slug of a slug or of a key changes
nothing, and a key is read back from among blank characters.
-/

namespace Text

/-- The words of a name: runs of letters and digits of the lowercased name. -/
def words (name : String) : List (List Char) :=
  runs isSlugChar (name.toList.flatMap lowercase)

/-- A text without a hyphen at either end or next to another. -/
structure HyphensApart (text : List Char) : Prop where
  start : text.head? ≠ some '-'
  finish : text.getLast? ≠ some '-'
  single : ¬['-', '-'] <:+: text

/--
What a slug is of the name that it is made of, whichever characters beyond ASCII
the name's own are lowercased to.
-/
structure IsSlugOf (name slug : String) : Prop where
  lowercased :
    ∃ text, Lowercased name.toList text
  words :
    ∀ text,
      Lowercased name.toList text →
        ∀ word,
          word ∈ runs slugAlphabet.contains text ↔
            IsRun slugAlphabet.contains text word
  joined :
    ∀ text,
      Lowercased name.toList text →
        slug.toList = ['-'].intercalate (runs slugAlphabet.contains text)
  hyphens :
    HyphensApart slug.toList
  fixed :
    slugify slug = slug

theorem isSlugChar_hyphen : isSlugChar '-' = false := by
  decide

theorem toList_slugify (name : String) :
    (slugify name).toList = ['-'].intercalate (words name) := by
  rw [slugify, String.toList_ofList, slugChars_eq_intercalate, words]

/-- Characters of a slug are lowercase already. -/
theorem lowercase_of_mem_slugChars
    {name : List Char}
    {c : Char}
    (member : c ∈ slugChars name) :
    lowercase c = [c] := by
  have unchanged :
      slugAlphabet.all (fun letter => lowercase letter = [letter]) = true := by
    decide
  rcases mem_collapse member with kept | rfl
  · rw [isSlugChar_eq_contains, List.contains_iff_mem] at kept
    simpa using List.all_eq_true.mp unchanged c kept
  · decide

/-- The slug of a slug is that slug. -/
theorem slugify_slugify (name : String) :
    slugify (slugify name) = slugify name := by
  have unchanged :
      (slugChars name.toList).flatMap lowercase = slugChars name.toList := by
    rw [List.flatMap_congr (fun c member => lowercase_of_mem_slugChars member)]
    simp
  have sameWords : words (slugify name) = words name := by
    rw [words, slugify, String.toList_ofList, unchanged,
      slugChars_eq_intercalate, runs_intercalate_runs isSlugChar_hyphen, words]
  rw [← String.toList_inj, toList_slugify, sameWords, toList_slugify]

/-- A word before a hyphen keeps hyphens apart. -/
theorem HyphensApart.append
    {word rest : List Char}
    (written : word ≠ [])
    (solid : '-' ∉ word)
    (restWritten : rest ≠ [])
    (apart : HyphensApart rest) :
    HyphensApart (word ++ '-' :: rest) := by
  refine ⟨?_, ?_, ?_⟩
  · obtain ⟨first, others, rfl⟩ := List.exists_cons_of_ne_nil written
    rintro isHyphen
    obtain rfl : first = '-' := by
      simpa using isHyphen
    simp at solid
  · obtain ⟨first, others, rfl⟩ := List.exists_cons_of_ne_nil restWritten
    simpa [List.getLast?_append] using apart.finish
  · rintro ⟨before, after, doubled⟩
    rw [List.append_assoc, List.append_eq_append_iff] at doubled
    rcases doubled with ⟨skipped, isWord, inWord⟩ | ⟨skipped, rfl, inRest⟩
    · -- The first of two hyphens is not in the word, so it is the one behind it.
      cases skipped with
      | nil =>
          obtain rfl : rest = '-' :: after := by
            simpa using inWord.symm
          exact apart.start rfl
      | cons c others =>
          obtain ⟨rfl, -⟩ : '-' = c ∧ _ := by
            simpa using inWord
          simp [isWord] at solid
    · cases skipped with
      | nil =>
          obtain rfl : rest = '-' :: after := by
            simpa using inRest
          exact apart.start rfl
      | cons c others =>
          obtain ⟨-, restShape⟩ :
              '-' = c ∧ rest = others ++ '-' :: '-' :: after := by
            simpa using inRest
          exact apart.single ⟨others, after, by simp [restShape]⟩

/-- Words that are joined by hyphens keep the hyphens apart. -/
theorem hyphensApart_intercalate
    {texts : List (List Char)}
    (formed : ∀ text ∈ texts, text ≠ [] ∧ '-' ∉ text) :
    HyphensApart (['-'].intercalate texts) := by
  induction texts with
  | nil =>
      exact ⟨nofun, nofun, by simp⟩
  | cons text others inductionHypothesis =>
      obtain ⟨⟨written, solid⟩, othersFormed⟩ :=
        List.forall_mem_cons.mp formed
      cases others with
      | nil =>
          rw [List.intercalate_singleton]
          refine ⟨?_, ?_, ?_⟩
          · exact fun isFirst => solid (List.mem_of_mem_head? isFirst)
          · exact fun isLast => solid (List.mem_of_getLast? isLast)
          · exact fun doubled => solid (doubled.subset (by simp))
      | cons next rest =>
          have restWritten : ['-'].intercalate (next :: rest) ≠ [] := by
            have nextWritten := (othersFormed next List.mem_cons_self).1
            simp [intercalate_cons, nextWritten]
          rw [List.intercalate_cons_cons, List.append_assoc]
          exact (inductionHypothesis othersFormed).append written solid
            restWritten

theorem isSlugOf_slugify (name : String) :
    IsSlugOf name (slugify name) := by
  have formed : ∀ word ∈ words name, word ≠ [] ∧ '-' ∉ word := by
    intro word listed
    have isRun := isRun_of_mem_runs listed
    refine ⟨isRun.written, fun inWord => ?_⟩
    have hyphenKept := isRun.kept '-' inWord
    simp [isSlugChar_hyphen] at hyphenKept
  refine ⟨⟨_, lowercased_flatMap name.toList⟩,
    fun _ _ _ => mem_runs_iff,
    fun _ lowercased => toList_slugify_of_lowercased lowercased, ?_,
    slugify_slugify name⟩
  rw [toList_slugify]
  exact hyphensApart_intercalate formed

/-- Names joined by spaces have the words of each. -/
theorem words_intercalate (names : List String) :
    words (" ".intercalate names) = names.flatMap words := by
  have spaceKept : lowercase ' ' = [' '] := by
    decide
  have spaceDropped : isSlugChar ' ' = false := by
    decide
  have lowered :
      ∀ texts : List (List Char),
        ([' '].intercalate texts).flatMap lowercase =
          [' '].intercalate (texts.map (List.flatMap lowercase)) := by
    intro texts
    induction texts with
    | nil =>
        rfl
    | cons text others inductionHypothesis =>
        cases others with
        | nil =>
            simp
        | cons next rest =>
            simp [List.intercalate_cons_cons, spaceKept, inductionHypothesis]
  have separator : " ".toList = [' '] :=
    rfl
  rw [words, String.toList_intercalate, separator, lowered,
    runs_intercalate spaceDropped, List.map_map, List.flatMap_map]
  rfl

end Text

namespace LogicalKey

/-- What a name adds to a key: its words, each after a hyphen. -/
theorem toList_segment (name : String) :
    (segment name).toList = (Text.words name).flatMap ('-' :: ·) := by
  have slugged := Text.toList_slugify name
  cases spelled : Text.words name with
  | nil =>
      have empty : Text.slugify name = "" := by
        rw [← String.toList_eq_nil_iff, slugged, spelled]
        rfl
      simp [segment, empty]
  | cons word others =>
      have written : word ≠ [] :=
        (Text.isRun_of_mem_runs (spelled ▸ List.mem_cons_self)).written
      rw [spelled, Text.intercalate_cons] at slugged
      have notEmpty : Text.slugify name ≠ "" := by
        rw [Ne, ← String.toList_eq_nil_iff, slugged]
        simp [written]
      simp [segment, notEmpty, slugged]

theorem toList_segments (names : List String) :
    (segments names).toList =
      (names.flatMap Text.words).flatMap ('-' :: ·) := by
  induction names with
  | nil =>
      rfl
  | cons name rest inductionHypothesis =>
      simp [segments, toList_segment, inductionHypothesis]

/-- The prefix of a kind is the slug of itself. -/
theorem slugify_keyPrefix (kind : ResourceKind) :
    Text.slugify kind.keyPrefix = kind.keyPrefix := by
  cases kind <;> decide +kernel

/-- A key is the slug of the kind's prefix and the names together. -/
theorem text_compose
    (kind : ResourceKind)
    (names : List String) :
    (compose kind names).text =
      Text.slugify (" ".intercalate (kind.keyPrefix :: names)) := by
  have prefixWritten : kind.keyPrefix.toList ≠ [] := by
    cases kind <;> decide
  have prefixSlug := Text.toList_slugify kind.keyPrefix
  rw [slugify_keyPrefix] at prefixSlug
  rw [← String.toList_inj, Text.toList_slugify, Text.words_intercalate,
    List.flatMap_cons, compose, String.toList_append, toList_segments]
  cases spelled : Text.words kind.keyPrefix with
  | nil =>
      simp [prefixSlug, spelled] at prefixWritten
  | cons word others =>
      rw [spelled, Text.intercalate_cons] at prefixSlug
      rw [prefixSlug, List.cons_append, Text.intercalate_cons]
      simp

/-- The part of a policy's ARN that stands for the policy in a key. -/
inductive PolicyPath (arn : String) : String → Prop
  | marked {before after : List Char} :
      Text.CutAtFirst ":policy/".toList arn.toList before after →
        PolicyPath arn (String.ofList after)
  | unmarked :
      ¬":policy/".toList <:+: arn.toList →
        PolicyPath arn arn

theorem policyPath_spec (arn : String) :
    PolicyPath arn (policyPath arn) := by
  rw [policyPath]
  split
  · rename_i before after found
    exact .marked (Text.splitFirst?_eq_some_iff.mp found)
  · rename_i notFound
    exact .unmarked (Text.splitFirst?_eq_none_iff.mp notFound)

/-- What a key is of the texts that it is made of, and how it is read. -/
structure IsKeyOf (parts : List String) (key : LogicalKey) : Prop where
  spelled :
    key.text = Text.slugify (" ".intercalate parts)
  fixed :
    Text.slugify key.text = key.text
  readBack :
    ∀ before after : String,
      before.toList ⊆ Text.whiteSpace →
        after.toList ⊆ Text.whiteSpace →
          ofObserved? (before ++ key.text ++ after) = some key

theorem isKeyOf_compose
    (kind : ResourceKind)
    (names : List String) :
    IsKeyOf (kind.keyPrefix :: names) (compose kind names) := by
  refine ⟨text_compose kind names, ?_, ?_⟩
  · rw [text_compose, Text.slugify_slugify]
  · intro before after beforeBlank afterBlank
    exact ofObserved?_padded
      (fun c listed => Text.isBlank_iff.mpr (beforeBlank listed))
      (fun c listed => Text.isBlank_iff.mpr (afterBlank listed)) kind names

/-- The texts that a principal's key is made of. -/
def principalParts : PrincipalKind → String → List String
  | .group, name => ["identity-center-group", name]
  | .user, name => ["identity-center-user", name]

end LogicalKey

/-- The texts that the key of a resource is made of, its kind's prefix first. -/
def ResourceIdentity.keyParts : ResourceIdentity → List String
  | group name => ["identity-center-group", name]
  | user name => ["identity-center-user", name]
  | membership member container =>
      ["identity-center-group-membership", member, container]
  | permissionSet name => ["permission-set", name]
  | inlinePolicy set => ["permission-set-inline-policy", set]
  | managedPolicy set arn =>
      ["permission-set-managed-policy", set, LogicalKey.policyPath arn]
  | customerPolicy set path name =>
      ["permission-set-customer-policy", set, path, name]
  | assignment set .group principal account =>
      ["account-assignment", set, "group", principal, account]
  | assignment set .user principal account =>
      ["account-assignment", set, "user", principal, account]

/-- The texts of a key are the prefix of its kind and the names of its resource. -/
theorem ResourceIdentity.keyParts_eq (identity : ResourceIdentity) :
    identity.keyParts = identity.kind.keyPrefix :: identity.names := by
  cases identity with
  | assignment set principalKind principal account =>
      cases principalKind <;> rfl
  | group | user | membership | permissionSet | inlinePolicy |
      managedPolicy | customerPolicy =>
      rfl

namespace LogicalKey

/--
A slug is the words of its name joined by single hyphens.  The key of every
resource is the slug of its kind's prefix and its names together, where a
policy's ARN stands for what follows the first `:policy/`; it is its own slug
and is read back from among blank characters.
-/
theorem slugs_and_keys_normal :
    (∀ name, Text.IsSlugOf name (Text.slugify name)) ∧
      (∀ identity : ResourceIdentity,
        IsKeyOf identity.keyParts identity.key) ∧
        (∀ kind name,
          IsKeyOf (principalParts kind name) (principal kind name)) ∧
          ∀ arn, PolicyPath arn (policyPath arn) := by
  refine ⟨Text.isSlugOf_slugify, ?_, ?_, policyPath_spec⟩
  · intro identity
    rw [identity.keyParts_eq, identity.key_eq_compose]
    exact isKeyOf_compose identity.kind identity.names
  · intro kind name
    cases kind with
    | group =>
        exact isKeyOf_compose .group [name]
    | user =>
        exact isKeyOf_compose .user [name]

theorem slugs_and_keys_normal_sample :
    Text.slugify "Ops \u212a" = "ops-k" ∧
      ofObserved?
          ("\t " ++
            (managedPolicy "viewer" "arn:aws:iam::aws:policy/ops/ViewOnly").text ++
              "\n") =
        some (managedPolicy "viewer" "arn:aws:iam::aws:policy/ops/ViewOnly") := by
  have lowercased :
      Text.Lowercased ['O', 'p', 's', ' ', '\u212a']
        ['o', 'p', 's', ' ', 'k'] :=
    .cons (.capital (by decide))
      (.cons (.ascii (by decide) (by decide))
        (.cons (.ascii (by decide) (by decide))
          (.cons (.ascii (by decide) (by decide))
            (.cons .kelvinSign .nil))))
  refine ⟨?_, ?_⟩
  · rw [← String.toList_inj,
      (slugs_and_keys_normal.1 "Ops \u212a").joined _ lowercased]
    decide
  · exact
      (slugs_and_keys_normal.2.1
          (.managedPolicy "viewer"
            "arn:aws:iam::aws:policy/ops/ViewOnly")).readBack
        "\t " "\n" (by decide) (by decide)

end LogicalKey

end AccessTopology
