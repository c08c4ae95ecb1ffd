namespace TypeHints.Text

/-- The text does not begin with a character that has the property. -/
def Barred (p : Char → Bool) (cs : List Char) : Prop := ∀ c ∈ cs.head?, p c = false

theorem barred_nil (p : Char → Bool) : Barred p [] := by simp [Barred]

@[simp] theorem barred_cons {p : Char → Bool} {c : Char} {cs : List Char} :
    Barred p (c :: cs) ↔ p c = false := by simp [Barred]

theorem barred_dropWhile (p : Char → Bool) (cs : List Char) : Barred p (cs.dropWhile p) := by
  intro c member
  have := List.head?_dropWhile_not p cs
  rw [Option.mem_def.mp member] at this
  simpa using this

theorem Barred.imp {p q : Char → Bool} {cs : List Char} (h : Barred p cs)
    (weaker : ∀ c, q c = true → p c = true) : Barred q cs := by
  intro c member
  have out := h c member
  cases inside : q c with
  | false => rfl
  | true => rw [weaker c inside] at out; exact absurd out (by simp)

theorem takeWhile_barred {p : Char → Bool} {cs : List Char} (h : Barred p cs) :
    cs.takeWhile p = [] := by
  cases cs with
  | nil => rfl
  | cons c rest => simp [barred_cons.mp h]

theorem dropWhile_barred {p : Char → Bool} {cs : List Char} (h : Barred p cs) :
    cs.dropWhile p = cs := by
  cases cs with
  | nil => rfl
  | cons c rest => simp [barred_cons.mp h]

theorem takeWhile_append_barred {p : Char → Bool} {word after : List Char}
    (inside : ∀ c ∈ word, p c = true) (h : Barred p after) : (word ++ after).takeWhile p = word := by
  rw [List.takeWhile_append_of_pos inside, takeWhile_barred h, List.append_nil]

theorem dropWhile_append_barred {p : Char → Bool} {word after : List Char}
    (inside : ∀ c ∈ word, p c = true) (h : Barred p after) : (word ++ after).dropWhile p = after := by
  rw [List.dropWhile_append_of_pos inside, dropWhile_barred h]

theorem takeWhile_before {p : Char → Bool} {after : List Char} (h : Barred p after) (cs : List Char) :
    (cs ++ after).takeWhile p = cs.takeWhile p := by
  rw [List.takeWhile_append, takeWhile_barred h, List.append_nil]
  split
  next whole => exact (List.takeWhile_prefix p).eq_of_length whole |>.symm
  next => rfl

theorem dropWhile_before {p : Char → Bool} {after : List Char} (h : Barred p after) (cs : List Char) :
    (cs ++ after).dropWhile p = cs.dropWhile p ++ after := by
  rw [List.dropWhile_append, dropWhile_barred h]
  split
  next none => rw [List.isEmpty_iff.mp none, List.nil_append]
  next => rfl

theorem takeWhile_inside (p : Char → Bool) (cs : List Char) :
    ∀ c ∈ cs.takeWhile p, p c = true := by
  have all := List.all_takeWhile (p := p) (l := cs)
  exact List.all_eq_true.mp all

theorem drop_length_takeWhile (p : Char → Bool) (cs : List Char) :
    cs.drop (cs.takeWhile p).length = cs.dropWhile p := by
  induction cs with
  | nil => rfl
  | cons c rest ih => by_cases inside : p c = true <;> simp [inside, ih]

theorem takeWhile_ne_nil {p : Char → Bool} {cs : List Char} :
    cs.takeWhile p ≠ [] ↔ cs.head?.any p = true := by
  cases cs with
  | nil => simp
  | cons c rest => cases inside : p c <;> simp [inside]

theorem barred_of_isPrefix {p : Char → Bool} {back after : List Char} (cut : after <+: back)
    (h : Barred p back) : Barred p after := by
  obtain ⟨tail, rfl⟩ := cut
  cases after with
  | nil => exact barred_nil p
  | cons c rest => simpa using h

end TypeHints.Text
