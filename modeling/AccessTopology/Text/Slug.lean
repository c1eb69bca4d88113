namespace AccessTopology.Text

/-!
# Slugs

A slug keeps the ASCII letters and digits of a lowercased name and writes one
hyphen for each run of anything else between them. Names that differ only in
letter case or punctuation share a slug.
-/

/--
Lowercase form of a character, as far as a slug can see it.

Outside ASCII only two characters have a lowercase form that holds an ASCII
letter: the Kelvin sign becomes `k`, and the capital I with a dot above becomes
`i` followed by a combining dot. Every other lowercase form is outside ASCII
exactly when its character is.
-/
def lowercase (c : Char) : List Char :=
  if c = '\u212a' then ['k']
  else if c = '\u0130' then ['i', '\u0307']
  else [c.toLower]

/-- Whether a character may stand in a slug besides the hyphen. -/
def isSlugChar (c : Char) : Bool :=
  c.isLower || c.isDigit

/--
Slug of the characters that follow.

`started` tells whether a letter or digit was written already, `pending`
whether something was left out since.
-/
def collapse : (started pending : Bool) → List Char → List Char
  | _, _, [] => []
  | started, pending, c :: rest =>
      if isSlugChar c then
        if started && pending then
          '-' :: c :: collapse true false rest
        else
          c :: collapse true false rest
      else
        collapse started true rest

/-- A slug holds lowercase ASCII letters, ASCII digits and hyphens only. -/
theorem mem_collapse
    {started pending : Bool}
    {name : List Char}
    {c : Char}
    (member : c ∈ collapse started pending name) :
    isSlugChar c = true ∨ c = '-' := by
  induction name generalizing started pending with
  | nil =>
      simp [collapse] at member
  | cons first rest inductionHypothesis =>
      rw [collapse] at member
      split at member
      · rename_i kept
        split at member
        · rcases List.mem_cons.mp member with isHyphen | later
          · exact .inr isHyphen
          · rcases List.mem_cons.mp later with isFirst | inRest
            · exact .inl (isFirst ▸ kept)
            · exact inductionHypothesis inRest
        · rcases List.mem_cons.mp member with isFirst | inRest
          · exact .inl (isFirst ▸ kept)
          · exact inductionHypothesis inRest
      · exact inductionHypothesis member

/-- Slug of a list of characters. -/
def slugChars (name : List Char) : List Char :=
  collapse false false (name.flatMap lowercase)

/-- Slug of a name. -/
def slugify (name : String) : String :=
  String.ofList (slugChars name.toList)

end AccessTopology.Text
