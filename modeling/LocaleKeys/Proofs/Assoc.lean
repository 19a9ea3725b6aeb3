import LocaleKeys.Assoc

/-!
Laws of association lists. Setting and offering are both updates, so the keys, the entries and the
look-ups are worked out for updates and read off for the other two.
-/

namespace LocaleKeys.Assoc

variable {α β : Type}

/-- The keys in their order. -/
def keys (entries : List (α × β)) : List α :=
  entries.map Prod.fst

@[simp]
theorem keys_nil : keys ([] : List (α × β)) = [] := rfl

@[simp]
theorem keys_cons (entry : α × β) (entries : List (α × β)) :
    keys (entry :: entries) = entry.1 :: keys entries := rfl

theorem not_mem_keys_of_nodup {before after : List (α × β)} {key : α} {value : β}
    (h : (keys (before ++ (key, value) :: after)).Nodup) : key ∉ keys before := by
  rw [keys, List.map_append, List.map_cons] at h
  intro hkey
  exact (List.nodup_append.mp h).2.2 key hkey key List.mem_cons_self rfl

/-- A list is split at its first element or behind it. -/
theorem exists_split_cons {first : α} {rest : List α} {P : List α → α → Prop} :
    (∃ front a back, first :: rest = front ++ a :: back ∧ P front a) ↔
      P [] first ∨ ∃ front a back, rest = front ++ a :: back ∧ P (first :: front) a := by
  constructor
  · rintro ⟨front, a, back, hsplit, hP⟩
    cases front with
    | nil =>
        obtain ⟨rfl, rfl⟩ := List.cons.inj hsplit
        exact Or.inl hP
    | cons head front =>
        obtain ⟨rfl, rfl⟩ := List.cons.inj hsplit
        exact Or.inr ⟨front, a, back, rfl, hP⟩
  · rintro (hP | ⟨front, a, back, rfl, hP⟩)
    · exact ⟨[], first, rest, rfl, hP⟩
    · exact ⟨first :: front, a, back, rfl, hP⟩

/-- What becomes of the entries when a key is given a value: the entry of the key gets the value where
it stands, or a new entry comes last. All others stay as they are and where they are. -/
inductive Puts (key : α) (value : β) : List (α × β) → List (α × β) → Prop
  | change {front back : List (α × β)} {old : β} (first : key ∉ keys front) :
      Puts key value (front ++ (key, old) :: back) (front ++ (key, value) :: back)
  | add {entries : List (α × β)} (absent : key ∉ keys entries) :
      Puts key value entries (entries ++ [(key, value)])

variable [BEq α]

theorem put_eq_update (key : α) (value : β) (entries : List (α × β)) :
    put key value entries = update key (fun _ => value) entries := by
  induction entries with
  | nil => rfl
  | cons entry rest ih => simp only [put, update, ih]

theorem offer_eq_update (key : α) (value : β) (entries : List (α × β)) :
    offer key value entries = update key (fun old => old.getD value) entries := by
  induction entries with
  | nil => rfl
  | cons entry rest ih => simp only [offer, update, ih, Option.getD_some]

theorem get?_append (key : α) (front back : List (α × β)) :
    get? key (front ++ back) = (get? key front).or (get? key back) := by
  induction front with
  | nil => rfl
  | cons entry rest ih =>
      rw [List.cons_append, get?, get?, ih]
      split <;> rfl

variable [LawfulBEq α]

theorem keys_update (key : α) (change : Option β → β) (entries : List (α × β)) :
    keys (update key change entries) =
      if key ∈ keys entries then keys entries else keys entries ++ [key] := by
  induction entries with
  | nil => rfl
  | cons entry rest ih =>
      by_cases h : entry.1 = key
      · simp [update, h]
      · have h' : ¬ key = entry.1 := fun e => h e.symm
        simp only [update, beq_iff_eq, h, if_false, keys_cons, ih, List.mem_cons, h', false_or]
        split <;> simp

theorem nodup_keys_update (key : α) (change : Option β → β) {entries : List (α × β)}
    (h : (keys entries).Nodup) : (keys (update key change entries)).Nodup := by
  rw [keys_update]
  split
  · exact h
  · next absent =>
      refine List.nodup_append.mpr ⟨h, by simp, ?_⟩
      intro a ha b hb e
      rw [e, List.mem_singleton.mp hb] at ha
      exact absent ha

theorem update_of_not_mem {key : α} (change : Option β → β) {entries : List (α × β)}
    (h : key ∉ keys entries) : update key change entries = entries ++ [(key, change none)] := by
  induction entries with
  | nil => rfl
  | cons entry rest ih =>
      simp only [keys_cons, List.mem_cons, not_or] at h
      have hk : ¬ entry.1 = key := fun e => h.1 e.symm
      simp [update, hk, ih h.2]

/-- An update adds an entry at the end, or it changes the first entry of the key where it stands. -/
theorem update_cases (key : α) (entries : List (α × β)) :
    (key ∉ keys entries ∧
        ∀ change, update key change entries = entries ++ [(key, change none)]) ∨
      ∃ front value back, key ∉ keys front ∧ entries = front ++ (key, value) :: back ∧
        ∀ change, update key change entries = front ++ (key, change (some value)) :: back := by
  by_cases present : key ∈ keys entries
  · right
    induction entries with
    | nil => cases present
    | cons entry rest ih =>
        obtain ⟨k, v⟩ := entry
        by_cases hk : k = key
        · subst hk
          exact ⟨[], v, rest, List.not_mem_nil, rfl, fun change => by simp [update]⟩
        · have hk' : ¬ key = k := fun e => hk e.symm
          have hrest : key ∈ keys rest := (List.mem_cons.mp present).resolve_left hk'
          obtain ⟨front, value, back, hfront, rfl, hupdate⟩ := ih hrest
          exact ⟨(k, v) :: front, value, back, by simp [hk', hfront], rfl,
            fun change => by simp [update, hk, hupdate]⟩
  · exact Or.inl ⟨present, fun change => update_of_not_mem change present⟩

/-- An entry of an updated list is an old one, or it stands under the updated key. -/
theorem mem_update {key : α} {change : Option β → β} {entries : List (α × β)} {entry : α × β}
    (h : entry ∈ update key change entries) :
    entry ∈ entries ∨
      ∃ old, entry = (key, change old) ∧ ∀ value, old = some value → (key, value) ∈ entries := by
  obtain ⟨-, hupdate⟩ | ⟨front, value, back, -, rfl, hupdate⟩ := update_cases key entries
  · rw [hupdate, List.mem_append, List.mem_singleton] at h
    exact h.imp_right fun fresh => ⟨none, fresh, fun _ e => nomatch e⟩
  · rw [hupdate, List.mem_append, List.mem_cons] at h
    obtain hfront | rfl | hback := h
    · exact Or.inl (List.mem_append_left _ hfront)
    · exact Or.inr ⟨some value, rfl, by simp⟩
    · exact Or.inl (List.mem_append_right _ (List.mem_cons_of_mem _ hback))

/-- What holds of all values holds after an update, if the change gives such a value. -/
theorem forall_update {P : β → Prop} {key : α} {change : Option β → β} {entries : List (α × β)}
    (h : ∀ entry ∈ entries, P entry.2)
    (hchange : ∀ old, (∀ value, old = some value → P value) → P (change old)) :
    ∀ entry ∈ update key change entries, P entry.2 := by
  intro entry hentry
  cases mem_update hentry with
  | inl old => exact h entry old
  | inr fresh =>
      obtain ⟨old, rfl, hold⟩ := fresh
      exact hchange old fun value hvalue => h _ (hold value hvalue)

theorem puts_update (key : α) (change : Option β → β) (entries : List (α × β)) :
    ∃ value, Puts key value entries (update key change entries) := by
  obtain ⟨absent, hupdate⟩ | ⟨front, value, back, hfront, rfl, hupdate⟩ := update_cases key entries
  · rw [hupdate]
    exact ⟨_, .add absent⟩
  · rw [hupdate]
    exact ⟨_, .change hfront⟩

/-- Updates of two keys can be made in either order, but for the order of what they add. -/
theorem update_update_perm {first second : α} (hne : first ≠ second)
    (change change' : Option β → β) (entries : List (α × β)) :
    (update second change' (update first change entries)).Perm
      (update first change (update second change' entries)) := by
  have hne' : second ≠ first := hne.symm
  induction entries with
  | nil => simpa [update, hne, hne'] using List.Perm.swap _ _ []
  | cons entry rest ih =>
      by_cases h : entry.1 = first
      · simp [update, h, hne]
      · by_cases h' : entry.1 = second
        · simp [update, h', hne']
        · simpa [update, h, h'] using ih

theorem offer_of_not_mem {key : α} (value : β) {entries : List (α × β)} (h : key ∉ keys entries) :
    offer key value entries = entries ++ [(key, value)] := by
  rw [offer_eq_update, update_of_not_mem _ h, Option.getD_none]

theorem offer_of_mem {key : α} (value : β) {entries : List (α × β)} (h : key ∈ keys entries) :
    offer key value entries = entries := by
  induction entries with
  | nil => cases h
  | cons entry rest ih =>
      by_cases hk : entry.1 = key
      · rw [offer, if_pos (by simpa using hk)]
      · have hrest : key ∈ keys rest := (List.mem_cons.mp h).resolve_left fun e => hk e.symm
        simp [offer, hk, ih hrest]

theorem update_update (key : α) (first second : Option β → β) (entries : List (α × β)) :
    update key second (update key first entries) =
      update key (fun old => second (some (first old))) entries := by
  induction entries with
  | nil => simp [update]
  | cons entry rest ih =>
      by_cases h : entry.1 = key <;> simp [update, h, ih]

theorem get?_update (key : α) (change : Option β → β) (entries : List (α × β)) (k : α) :
    get? k (update key change entries) =
      if key == k then some (change (get? k entries)) else get? k entries := by
  induction entries with
  | nil => simp [update, get?]
  | cons entry rest ih =>
      by_cases h : entry.1 = key
      · subst h
        by_cases hk : entry.1 = k <;> simp [update, get?, hk]
      · by_cases hk : entry.1 = k
        · subst hk
          have h' : ¬ key = entry.1 := fun e => h e.symm
          simp [update, get?, h, h']
        · simp [update, get?, h, hk, ih]

/-- An update that changes nothing finds the value that it would set. -/
theorem get?_of_update_eq {key : α} {change : Option β → β} {entries : List (α × β)}
    (h : update key change entries = entries) :
    get? key entries = some (change (get? key entries)) := by
  have found := get?_update key change entries key
  rwa [h, beq_self_eq_true, if_pos rfl] at found

theorem get?_offer (key : α) (value : β) (entries : List (α × β)) (k : α) :
    get? k (offer key value entries) =
      (get? k entries).or (if key == k then some value else none) := by
  rw [offer_eq_update, get?_update]
  by_cases h : key = k
  · cases get? k entries <;> simp [h]
  · simp [h]

theorem mem_of_get? {key : α} {value : β} {entries : List (α × β)}
    (h : get? key entries = some value) : (key, value) ∈ entries := by
  induction entries with
  | nil => cases h
  | cons entry rest ih =>
      by_cases hk : entry.1 = key
      · simp only [get?, hk, beq_self_eq_true, if_true, Option.some.injEq] at h
        subst hk h
        exact List.mem_cons_self
      · simp only [get?, beq_iff_eq, hk, if_false] at h
        exact List.mem_cons_of_mem _ (ih h)

theorem get?_of_mem {key : α} {value : β} {entries : List (α × β)} (hnodup : (keys entries).Nodup)
    (h : (key, value) ∈ entries) : get? key entries = some value := by
  induction entries with
  | nil => cases h
  | cons entry rest ih =>
      rw [keys_cons, List.nodup_cons] at hnodup
      cases h with
      | head _ => rw [get?, if_pos (beq_self_eq_true _)]
      | tail _ later =>
          have hne : ¬ entry.1 = key := fun e => hnodup.1 (e ▸ List.mem_map_of_mem later)
          rw [get?, if_neg (by simpa using hne), ih hnodup.2 later]

theorem has_iff {key : α} {entries : List (α × β)} :
    has key entries = true ↔ key ∈ keys entries := by
  induction entries with
  | nil => simp [has, get?]
  | cons entry rest ih =>
      rw [has] at ih ⊢
      by_cases hk : entry.1 = key
      · simp [get?, hk]
      · have hk' : ¬ key = entry.1 := fun e => hk e.symm
        simp [get?, hk, hk', ih]

theorem mem_offer {key : α} {value : β} {entries : List (α × β)} {entry : α × β}
    (h : entry ∈ offer key value entries) : entry ∈ entries ∨ entry = (key, value) := by
  by_cases present : key ∈ keys entries
  · rw [offer_of_mem value present] at h
    exact Or.inl h
  · rwa [offer_of_not_mem value present, List.mem_append, List.mem_singleton] at h

theorem mem_update_self (key : α) (change : Option β → β) (entries : List (α × β)) :
    (key, change (get? key entries)) ∈ update key change entries := by
  apply mem_of_get?
  rw [get?_update, beq_self_eq_true, if_pos rfl]

end LocaleKeys.Assoc
