import LocaleKeys.Source.Usages
import Mathlib.Data.List.Induction
import LocaleKeys.Proofs.Text.Point

/-!
Names in source text and in settings. A callee is a configured method if its last names are those of the
method, whatever stands before them; a thing is indexed like a configured type if its last name ends
like the type, or like the last word of it.
-/

namespace LocaleKeys.Source

/-! Dotted names -/

/-- The form in which a name of source text is compared. -/
def compared (name : String) : List Point :=
  comparable (normalName name)

/-- Whether the last names of a dotted expression, in the form in which they are compared, are some
words. What they are the names of need not be a name. -/
inductive EndsIn : Node → List (List Point) → Prop
  | name (id : String) : EndsIn (.name id) [compared id]
  | member (target : Node) (member : String) : EndsIn (.attribute target member) [compared member]
  | further {target : Node} {words : List (List Point)} (member : String) :
      EndsIn target words → EndsIn (.attribute target member) (words ++ [compared member])

/-- The last name of a dotted expression. -/
def lastName? : Node → Option String
  | .name name | .attribute _ name => some name
  | _ => none

/-- The names of a configured method, in the form in which they are compared. -/
def segments (method : Text) : List (List Point) :=
  ((method.toList.splitOn (.char '.')).filter (· ≠ [])).map fun part => comparable (Text.ofList part)

theorem EndsIn.ne_nil {n : Node} {words : List (List Point)} (h : EndsIn n words) : words ≠ [] := by
  cases h with
  | name id => exact List.cons_ne_nil _ _
  | member target member => exact List.cons_ne_nil _ _
  | further member h => exact List.append_ne_nil_of_right_ne_nil _ (List.cons_ne_nil _ _)

theorem EndsIn.suffix {n : Node} {words : List (List Point)} (h : EndsIn n words) :
    words <:+ (dotted n).map comparable := by
  induction h with
  | name id => exact List.suffix_rfl
  | member target member =>
      rw [dotted, List.map_append]
      exact List.suffix_append _ _
  | further member h ih =>
      rw [dotted, List.map_append]
      exact List.suffix_append_self_iff.mpr ih

theorem endsIn_of_suffix {n : Node} {words : List (List Point)} (hne : words ≠ [])
    (h : words <:+ (dotted n).map comparable) : EndsIn n words := by
  induction n using dotted.induct generalizing words with
  | case1 id =>
      rcases List.suffix_cons_iff.mp h with rfl | hnil
      · exact .name id
      · exact absurd (List.suffix_nil.mp hnil) hne
  | case2 target member ih =>
      rw [dotted, List.map_append] at h
      obtain hnil | ⟨front, rfl, hfront⟩ := List.suffix_concat_iff.mp h
      · exact absurd hnil hne
      · by_cases hempty : front = []
        · rw [hempty]
          exact .member target member
        · exact .further member (ih hempty hfront)
  | case3 n hname hattribute =>
      rw [dotted.eq_3 n hname hattribute] at h
      exact absurd (List.suffix_nil.mp h) hne

theorem getLast?_dotted (n : Node) : (dotted n).getLast? = (lastName? n).map normalName := by
  cases n with
  | name id => rfl
  | «attribute» target member => exact List.getLast?_concat
  | call | subscript | text | sequence | starred | other => rfl

/-! Words of type names -/

/-- Whether a character stands in a word of a type name. -/
def InWord (c : Point) : Prop :=
  c.isUpper = true ∨ isWordPart c = true

/-- Whether a word starts at a character behind some others: at a capital, or where none goes on. -/
def StartsBehind (front : List Point) (c : Point) : Prop :=
  c.isUpper = true ∨ isWordPart c = true ∧ ∀ d ∈ front.getLast?, ¬ InWord d

/-- The last word of a type name. It goes on as far as it can, and there is none behind it. -/
inductive IsLastWord : List Point → List Point → Prop
  | intro {front letters back : List Point} {c : Point} (starts : StartsBehind front c)
      (goes_on : ∀ d ∈ letters, isWordPart d = true) (none_behind : ∀ d ∈ back, ¬ InWord d) :
      IsLastWord (front ++ c :: letters ++ back) (c :: letters)

/-- What the names of things of a type end in: the whole name of the type, or its last word. -/
inductive IsEnding (type : Text) : List Point → Prop
  | whole : comparable type ≠ [] → IsEnding type (comparable type)
  | word {word : List Point} : IsLastWord type.toList word → IsEnding type (word.map Point.toLower)

/-- Whether a thing is named like a type: its last name ends like the type does. -/
def IsNamedLike (type : Text) (target : Node) : Prop :=
  ∃ name ending, lastName? target = some name ∧ IsEnding type ending ∧ ending <:+ compared name

section Words

variable {name word : List Point} {c : Point}

theorem isLastWord_start (h : StartsBehind name c) : IsLastWord (name ++ [c]) [c] := by
  have hword : IsLastWord (name ++ [c] ++ []) [c] :=
    .intro h (List.forall_mem_nil _) (List.forall_mem_nil _)
  rwa [List.append_nil] at hword

theorem IsLastWord.pass (h : IsLastWord name word) (hc : ¬ InWord c) :
    IsLastWord (name ++ [c]) word := by
  cases h with
  | intro starts goes_on none_behind =>
      rw [List.append_assoc]
      exact .intro starts goes_on
        (List.forall_mem_append.mpr ⟨none_behind, List.forall_mem_singleton.mpr hc⟩)

theorem IsLastWord.extend (h : IsLastWord name word) (hlast : ∃ d ∈ name.getLast?, InWord d)
    (hc : isWordPart c = true) : IsLastWord (name ++ [c]) (word ++ [c]) := by
  cases h with
  | @intro front letters back start starts goes_on none_behind =>
      rcases List.eq_nil_or_concat back with rfl | ⟨others, other, rfl⟩
      · have hletters : ∀ d ∈ letters ++ [c], isWordPart d = true :=
          List.forall_mem_append.mpr ⟨goes_on, List.forall_mem_singleton.mpr hc⟩
        have hword : IsLastWord (front ++ start :: (letters ++ [c]) ++ []) (start :: (letters ++ [c])) :=
          .intro starts hletters (List.forall_mem_nil _)
        simpa using hword
      · obtain ⟨d, hd, hin⟩ := hlast
        rw [List.concat_eq_append, ← List.append_assoc, List.getLast?_concat] at hd
        obtain rfl := Option.some.inj hd
        exact absurd hin (none_behind _ (by rw [List.concat_eq_append]; exact List.mem_concat_self))

theorem exists_isLastWord (name : List Point) :
    (∃ word, IsLastWord name word) ∨ ∀ d ∈ name, ¬ InWord d := by
  induction name using List.reverseRecOn with
  | nil => exact .inr (List.forall_mem_nil _)
  | append_singleton name c ih =>
      by_cases hstart : StartsBehind name c
      · exact .inl ⟨_, isLastWord_start hstart⟩
      · by_cases hc : InWord c
        · -- A word goes on here, so there is one before.
          have hpart := hc.resolve_left fun h => hstart (.inl h)
          have hlast : ∃ d ∈ name.getLast?, InWord d := by
            by_contra hnone
            push Not at hnone
            exact hstart (.inr ⟨hpart, hnone⟩)
          obtain ⟨d, hd, hin⟩ := hlast
          rcases ih with ⟨word, hword⟩ | hnone
          · exact .inl ⟨_, hword.extend ⟨d, hd, hin⟩ hpart⟩
          · exact absurd hin (hnone d (List.mem_of_getLast? hd))
        · rcases ih with ⟨word, hword⟩ | hnone
          · exact .inl ⟨word, hword.pass hc⟩
          · exact .inr (List.forall_mem_append.mpr ⟨hnone, List.forall_mem_singleton.mpr hc⟩)

end Words

theorem not_isWordPart {c : Point} (h : c.isUpper = true) : isWordPart c = false := by
  have hlow : c.toNat ≤ 'Z'.val.toNat := by
    cases c with
    | half n => exact absurd h Bool.false_ne_true
    | char c =>
        have hrange : c.val ≥ 'A'.val ∧ c.val ≤ 'Z'.val := of_decide_eq_true h
        exact UInt32.le_iff_toNat_le.mp hrange.2
  have hall : ∀ n < 0x80, (Point.ofNat n).isUpper = true → isWordPart (Point.ofNat n) = false := by decide
  have hc := hall c.toNat (Nat.lt_of_le_of_lt hlow (by decide))
  rw [Point.ofNat_toNat] at hc
  exact hc h

section LastWord

variable (word last : List Point)

theorem lastWordFrom_back {back : List Point} (h : ∀ d ∈ back, ¬ InWord d) :
    lastWordFrom word last back = if word = [] then last else word := by
  induction back generalizing word last with
  | nil => rfl
  | cons c back ih =>
      obtain ⟨hc, hback⟩ := List.forall_mem_cons.mp h
      rw [lastWordFrom, if_neg fun hpart => hc (.inr hpart), if_neg fun hupper => hc (.inl hupper),
        ih _ _ hback, if_pos rfl]

theorem lastWordFrom_letters {letters : List Point} (h : ∀ d ∈ letters, isWordPart d = true)
    (rest : List Point) :
    lastWordFrom word last (letters ++ rest) = lastWordFrom (letters.reverse ++ word) last rest := by
  induction letters generalizing word with
  | nil => rfl
  | cons c letters ih =>
      obtain ⟨hc, hletters⟩ := List.forall_mem_cons.mp h
      rw [List.cons_append, lastWordFrom, if_pos hc, ih _ hletters, List.reverse_cons,
        List.append_assoc]
      rfl

theorem exists_lastWordFrom_cons (c : Point) (rest : List Point) :
    ∃ word' last', lastWordFrom word last (c :: rest) = lastWordFrom word' last' rest ∧
      (¬ InWord c → word' = []) := by
  rw [lastWordFrom]
  by_cases hpart : isWordPart c = true
  · rw [if_pos hpart]
    exact ⟨_, _, rfl, fun hc => absurd (.inr hpart) hc⟩
  · rw [if_neg hpart]
    by_cases hupper : c.isUpper = true
    · rw [if_pos hupper]
      exact ⟨_, _, rfl, fun hc => absurd (.inl hupper) hc⟩
    · rw [if_neg hupper]
      exact ⟨_, _, rfl, fun _ => rfl⟩

/-- Reading goes on behind the front of a name, and in the middle of a word only if the front ends in
one. -/
theorem exists_lastWordFrom_front (front rest : List Point) :
    ∃ word last, lastWordFrom [] [] (front ++ rest) = lastWordFrom word last rest ∧
      ((∀ d ∈ front.getLast?, ¬ InWord d) → word = []) := by
  induction front using List.reverseRecOn generalizing rest with
  | nil => exact ⟨[], [], rfl, fun _ => rfl⟩
  | append_singleton front d ih =>
      obtain ⟨word, last, hfront, -⟩ := ih (d :: rest)
      obtain ⟨word', last', hd, hword⟩ := exists_lastWordFrom_cons word last d rest
      refine ⟨word', last', ?_, fun hnone => hword (hnone d List.getLast?_concat)⟩
      rw [List.append_assoc]
      exact hfront.trans hd

theorem exists_lastWordFrom_start {front : List Point} {c : Point} (h : StartsBehind front c)
    (rest : List Point) :
    ∃ last, lastWordFrom [] [] (front ++ c :: rest) = lastWordFrom [c] last rest := by
  obtain ⟨word, last, hfront, hword⟩ := exists_lastWordFrom_front front (c :: rest)
  rw [hfront, lastWordFrom]
  rcases h with hupper | ⟨hpart, hnone⟩
  · rw [if_neg (by rw [not_isWordPart hupper]; decide), if_pos hupper]
    exact ⟨_, rfl⟩
  · rw [if_pos hpart, hword hnone]
    exact ⟨_, rfl⟩

end LastWord

theorem IsLastWord.lastWordFrom_eq {name word : List Point} (h : IsLastWord name word) :
    lastWordFrom [] [] name = word.reverse := by
  cases h with
  | @intro front letters back c starts goes_on none_behind =>
      obtain ⟨last, hstart⟩ := exists_lastWordFrom_start starts (letters ++ back)
      rw [List.append_assoc, List.cons_append, hstart, lastWordFrom_letters _ _ goes_on,
        lastWordFrom_back _ _ none_behind, List.reverse_cons]
      exact if_neg (List.append_ne_nil_of_right_ne_nil _ (List.cons_ne_nil _ _))

theorem lastWord_eq {type : Text} {word : List Point} (h : IsLastWord type.toList word) :
    lastWord type = word.map Point.toLower := by
  rw [lastWord, h.lastWordFrom_eq, List.reverse_reverse]

theorem lastWord_eq_nil {type : Text} (h : ∀ d ∈ type.toList, ¬ InWord d) : lastWord type = [] := by
  rw [lastWord, lastWordFrom_back [] [] h]
  rfl

theorem IsLastWord.ne_nil {name word : List Point} (h : IsLastWord name word) : word ≠ [] := by
  cases h
  exact List.cons_ne_nil _ _

theorem mem_typeEndings {type : Text} {ending : List Point} :
    ending ∈ typeEndings type ↔ IsEnding type ending := by
  rw [typeEndings, List.mem_filter, decide_eq_true_iff]
  constructor
  · rintro ⟨hending, hne⟩
    rcases List.mem_cons.mp hending with rfl | hlast
    · exact .whole hne
    · obtain rfl := List.mem_singleton.mp hlast
      rcases exists_isLastWord type.toList with ⟨word, hword⟩ | hnone
      · rw [lastWord_eq hword]
        exact .word hword
      · exact absurd (lastWord_eq_nil hnone) hne
  · intro h
    cases h with
    | whole hne => exact ⟨List.mem_cons_self, hne⟩
    | word hword =>
        rw [← lastWord_eq hword]
        refine ⟨List.mem_cons_of_mem _ List.mem_cons_self, ?_⟩
        rw [lastWord_eq hword]
        exact mt List.map_eq_nil_iff.mp hword.ne_nil

end LocaleKeys.Source
