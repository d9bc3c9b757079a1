import JavaOutline.Files.Tree
import Mathlib.Data.List.Infix

/-!
# Changes of a file tree

Putting an entry at a place, or erasing the one there, changes what is found there and below, and
the children of the directories that lead there, but nothing else.  `Entry.Keeps` is what a later
tree has in common with an earlier one when directories and files were added and some files were
written over.

## Key results

- `get?_put`: what is found behind the place of a new entry
- `get?_put_of_not_prefix`: everything else is left alone
- `get?_erase`, `get?_erase_of_not_prefix`: an erased entry is gone, and nothing else
- `keeps_put_dir`, `keeps_put_file`: new directories and files keep what was there
-/

namespace JavaOutline.Entry

/-! ## Children -/

/-- A child that was put is found. -/
@[simp] theorem child?_putChild_self (name : String) (new : Entry) (cs : List (String × Entry)) :
    child? name (putChild name new cs) = some new := by
  induction cs with
  | nil => simp [putChild, child?]
  | cons c cs ih =>
    rw [putChild]
    split
    · rename_i h
      rw [child?, if_pos h]
    · rename_i h
      rw [child?, if_neg h, ih]

/-- Other children stay. -/
theorem child?_putChild_of_ne {name other : String} (h : other ≠ name) (new : Entry)
    (cs : List (String × Entry)) : child? other (putChild name new cs) = child? other cs := by
  induction cs with
  | nil => simp [putChild, child?, Ne.symm h]
  | cons c cs ih =>
    rw [putChild]
    split
    · rename_i heq
      -- The child that is replaced is not the one looked for.
      have hne : c.1 ≠ other := fun h' => h (h'.symm.trans (eq_of_beq heq))
      simp [child?, hne]
    · rw [child?, child?, ih]

/-! ## Places -/

@[simp] theorem get?_nil (e : Entry) : e.get? [] = some e := by
  cases e <;> rfl

/-- A place below a child. -/
theorem get?_cons (name : String) (names : List String) (cs : List (String × Entry)) :
    (dir cs).get? (name :: names) = (child? name cs).bind (·.get? names) := by
  rw [get?]
  cases child? name cs <;> rfl

/-- A place is found from a place on the way to it. -/
theorem get?_append (e : Entry) (p q : List String) :
    e.get? (p ++ q) = (e.get? p).bind (·.get? q) := by
  induction p generalizing e with
  | nil => simp
  | cons name names ih =>
    cases e with
    | dir cs =>
      rw [List.cons_append, get?_cons, get?_cons]
      cases child? name cs with
      | none => rfl
      | some c => exact ih c
    -- Below a file or a link there is nothing.
    | file _ | link _ => rfl

/-- What has something below it is a directory. -/
theorem exists_dir_of_get?_append {e x : Entry} {p q : List String} (hq : q ≠ [])
    (h : e.get? (p ++ q) = some x) : ∃ cs, e.get? p = some (dir cs) := by
  rw [get?_append] at h
  cases hp : e.get? p with
  | none => simp [hp] at h
  | some y =>
    -- A file or a link has nothing below it.
    obtain ⟨name, names, rfl⟩ := List.exists_cons_of_ne_nil hq
    cases y with
    | dir cs => exact ⟨cs, rfl⟩
    | file _ | link _ => simp [hp, get?] at h

/-! ## Putting -/

/-- What is found behind the place of a new entry, in a directory that is there. -/
theorem get?_put {root : Entry} (new : Entry) {place : List String} (name : String)
    {cs : List (String × Entry)} (h : root.get? place = some (dir cs)) (rest : List String) :
    (put new (place ++ [name]) root).get? (place ++ [name] ++ rest) = new.get? rest := by
  induction place generalizing root with
  | nil =>
    obtain rfl : root = dir cs := by simpa using h
    simp [put, get?_cons]
  | cons n place ih =>
    -- On the way there are directories only.
    cases root with
    | file _ | link _ => simp [get?] at h
    | dir children =>
      rw [get?_cons] at h
      cases hc : child? n children with
      | none => simp [hc] at h
      | some c =>
        rw [hc, Option.bind_some] at h
        simpa [put, get?_cons, hc] using ih h

/-- What is found elsewhere stays, but for the children of the directories on the way. -/
theorem get?_put_of_not_prefix {root : Entry} (new : Entry) {place p : List String}
    {name : String} {cs : List (String × Entry)} (h : root.get? place = some (dir cs))
    (hp : ¬ (place ++ [name]) <+: p) :
    (put new (place ++ [name]) root).get? p = root.get? p ∨
      (∃ ds, root.get? p = some (dir ds)) ∧
        ∃ ds, (put new (place ++ [name]) root).get? p = some (dir ds) := by
  induction place generalizing root p with
  | nil =>
    obtain rfl : root = dir cs := by simpa using h
    cases p with
    | nil => exact .inr ⟨⟨cs, get?_nil _⟩, _, get?_nil _⟩
    | cons n p =>
      -- Another child is not touched.
      left
      have hne : n ≠ name := by
        rintro rfl
        exact hp ⟨p, rfl⟩
      simp [put, get?_cons, child?_putChild_of_ne hne]
  | cons m place ih =>
    cases root with
    | file _ | link _ => simp [get?] at h
    | dir children =>
      cases p with
      | nil => exact .inr ⟨⟨children, get?_nil _⟩, _, get?_nil _⟩
      | cons n p =>
        rw [get?_cons] at h
        cases hc : child? m children with
        | none => simp [hc] at h
        | some c =>
          rw [hc, Option.bind_some] at h
          -- What changes lies below the child on the way.
          by_cases hne : n = m
          · subst hne
            have hbelow : ¬ (place ++ [name]) <+: p := by
              rintro ⟨t, rfl⟩
              exact hp ⟨t, rfl⟩
            simpa [put, get?_cons, hc] using ih h hbelow
          · left
            simp [put, get?_cons, child?_putChild_of_ne hne]

/-! ## Erasing -/

/-- What is erased from a directory is every child of one name. -/
theorem child?_filter (name other : String) (cs : List (String × Entry)) :
    child? other (cs.filter (·.1 != name)) = if other = name then none else child? other cs := by
  induction cs with
  | nil => simp [child?]
  | cons c cs ih =>
    obtain ⟨n, e⟩ := c
    by_cases hn : n = name
    · subst hn
      rw [List.filter_cons_of_neg (by simp), ih]
      split
      · rfl
      · rename_i hother
        rw [child?, if_neg (by simpa using Ne.symm hother)]
    · rw [List.filter_cons_of_pos (by simpa using hn), child?, child?, ih]
      split
      · rename_i heq
        -- The child that is kept is not the one that goes.
        have hother : other ≠ name := fun h => hn ((eq_of_beq heq).trans h)
        rw [if_neg hother]
      · rfl

/-- Nothing is left at and below a place that is erased. -/
theorem get?_erase {place : List String} (hplace : place ≠ []) (rest : List String) (root : Entry) :
    (erase place root).get? (place ++ rest) = none := by
  induction place generalizing root with
  | nil => exact absurd rfl hplace
  | cons n place ih =>
    cases root with
    -- Below a file or a link there is nothing, neither before nor after.
    | file _ | link _ => simp [erase, get?]
    | dir cs =>
      cases place with
      -- The last name is taken from its directory, and any other one leads further down.
      | nil => simp [erase, get?_cons, child?_filter]
      | cons m place =>
        simp only [erase]
        cases hc : child? n cs with
        | none => simp [get?_cons, hc]
        | some c => simpa [get?_cons] using ih (List.cons_ne_nil m place) c

/-- What is found elsewhere stays, but for the children of the directories on the way. -/
theorem get?_erase_of_not_prefix {place p : List String} (hp : ¬ place <+: p) (root : Entry) :
    (erase place root).get? p = root.get? p ∨
      (∃ ds, root.get? p = some (dir ds)) ∧ ∃ ds, (erase place root).get? p = some (dir ds) := by
  induction place generalizing root p with
  | nil => exact absurd List.nil_prefix hp
  | cons n place ih =>
    cases root with
    | file _ | link _ => simp [erase]
    | dir cs =>
      cases p with
      | nil =>
        right
        refine ⟨⟨cs, get?_nil _⟩, ?_⟩
        -- A directory stays a directory, however far down the erased place is.
        cases place with
        | nil => exact ⟨_, get?_nil _⟩
        | cons m place =>
          simp only [erase]
          split <;> exact ⟨_, get?_nil _⟩
      | cons k p =>
        cases place with
        | nil =>
          left
          have hne : k ≠ n := by
            rintro rfl
            exact hp ⟨p, rfl⟩
          simp [erase, get?_cons, child?_filter, hne]
        | cons m place =>
          simp only [erase]
          cases hc : child? n cs with
          | none => exact .inl rfl
          | some c =>
            by_cases hne : k = n
            · subst hne
              have hbelow : ¬ (m :: place) <+: p := by
                rintro ⟨t, rfl⟩
                exact hp ⟨t, rfl⟩
              simpa [get?_cons, hc] using ih hbelow c
            · left
              simp [get?_cons, child?_putChild_of_ne hne]

/-! ## Keeping -/

/-- What a later tree has in common with an earlier one: directories, links and files stay, and
    files are the same outside the places that are free to change. -/
structure Keeps (free : List String → Prop) (e e' : Entry) : Prop where
  dirs : ∀ {p cs}, e.get? p = some (dir cs) → ∃ cs', e'.get? p = some (dir cs')
  files : ∀ {p c}, e.get? p = some (file c) → ∃ c', e'.get? p = some (file c')
  links : ∀ {p t}, e'.get? p = some (link t) ↔ e.get? p = some (link t)
  fixed : ∀ {p c}, ¬ free p → (e'.get? p = some (file c) ↔ e.get? p = some (file c))

namespace Keeps

/-- Nothing changes. -/
protected theorem refl (free : List String → Prop) (e : Entry) : Keeps free e e :=
  ⟨fun h => ⟨_, h⟩, fun h => ⟨_, h⟩, .rfl, fun _ => .rfl⟩

/-- One change after the other. -/
protected theorem trans {free : List String → Prop} {a b c : Entry} (hab : Keeps free a b)
    (hbc : Keeps free b c) : Keeps free a c where
  dirs h := by
    obtain ⟨_, h⟩ := hab.dirs h
    exact hbc.dirs h
  files h := by
    obtain ⟨_, h⟩ := hab.files h
    exact hbc.files h
  links := hbc.links.trans hab.links
  fixed hp := (hbc.fixed hp).trans (hab.fixed hp)

/-- More places may be free. -/
theorem mono {free free' : List String → Prop} {a b : Entry} (h : Keeps free a b)
    (hfree : ∀ p, free p → free' p) : Keeps free' a b where
  dirs := h.dirs
  files := h.files
  links := h.links
  fixed hp := h.fixed fun hf => hp (hfree _ hf)

end Keeps

/-- A new entry keeps the others if it keeps what was found behind its place. -/
theorem keeps_put {root new : Entry} {place : List String} {name : String}
    {cs : List (String × Entry)} {free : List String → Prop}
    (h : root.get? place = some (dir cs))
    (hdirs : ∀ rest ds, root.get? (place ++ [name] ++ rest) ≠ some (dir ds))
    (hlinks : ∀ rest t, root.get? (place ++ [name] ++ rest) ≠ some (link t))
    (hnew : ∀ rest t, new.get? rest ≠ some (link t))
    (hfiles : ∀ rest c, root.get? (place ++ [name] ++ rest) = some (file c) →
      ∃ c', new.get? rest = some (file c'))
    (hfixed : ∀ rest c, ¬ free (place ++ [name] ++ rest) →
      (new.get? rest = some (file c) ↔ root.get? (place ++ [name] ++ rest) = some (file c))) :
    Keeps free root (put new (place ++ [name]) root) := by
  constructor
  case dirs =>
    intro p ds hp
    by_cases hprefix : (place ++ [name]) <+: p
    -- Behind the place of the new entry there was no directory to keep.
    · obtain ⟨rest, rfl⟩ := hprefix
      exact absurd hp (hdirs rest ds)
    -- Elsewhere an entry stays as it is, or it is a directory before and after.
    · rcases get?_put_of_not_prefix new h hprefix with heq | ⟨-, hdir⟩
      · exact ⟨ds, heq.trans hp⟩
      · exact hdir
  case files =>
    intro p c hp
    by_cases hprefix : (place ++ [name]) <+: p
    · obtain ⟨rest, rfl⟩ := hprefix
      rw [get?_put new name h]
      -- Files behind the place are asked for.
      exact hfiles rest c hp
    · rcases get?_put_of_not_prefix new h hprefix with heq | ⟨⟨ds, hds⟩, -⟩
      · exact ⟨c, heq.trans hp⟩
      · simp [hp] at hds
  case links =>
    intro p t
    by_cases hprefix : (place ++ [name]) <+: p
    · obtain ⟨rest, rfl⟩ := hprefix
      rw [get?_put new name h]
      -- There are no links behind the place, neither old nor new.
      exact ⟨fun hp => absurd hp (hnew rest t), fun hp => absurd hp (hlinks rest t)⟩
    · rcases get?_put_of_not_prefix new h hprefix with heq | ⟨⟨ds, hds⟩, ds', hds'⟩
      · rw [heq]
      · simp [hds, hds']
  case fixed =>
    intro p c hfree
    by_cases hprefix : (place ++ [name]) <+: p
    · obtain ⟨rest, rfl⟩ := hprefix
      rw [get?_put new name h]
      -- Files behind the place may change only where this is free.
      exact hfixed rest c hfree
    · rcases get?_put_of_not_prefix new h hprefix with heq | ⟨⟨ds, hds⟩, ds', hds'⟩
      · rw [heq]
      · simp [hds, hds']

/-- Nothing is below what is not there. -/
theorem get?_append_eq_none {root : Entry} {p : List String} (h : root.get? p = none)
    (rest : List String) : root.get? (p ++ rest) = none := by
  rw [get?_append, h]
  rfl

/-- Nothing but itself is found in an empty directory. -/
theorem eq_of_get?_empty {rest : List String} {e : Entry} (h : (dir []).get? rest = some e) :
    e = dir [] := by
  cases rest with
  | nil => simpa using h.symm
  | cons n rest => simp [get?_cons, child?] at h

/-- A new directory keeps everything. -/
theorem keeps_put_dir {root : Entry} {place : List String} {name : String}
    {cs : List (String × Entry)} (free : List String → Prop)
    (h : root.get? place = some (dir cs)) (hnone : root.get? (place ++ [name]) = none) :
    Keeps free root (put (dir []) (place ++ [name]) root) := by
  have hbehind := get?_append_eq_none hnone
  -- Nothing was at the place, and nothing is below it now.
  apply keeps_put h
  · intro rest ds
    rw [hbehind]
    exact nofun
  · intro rest t
    rw [hbehind]
    exact nofun
  · intro rest t ht
    exact nomatch eq_of_get?_empty ht
  · intro rest c hc
    rw [hbehind] at hc
    exact nomatch hc
  · intro rest c _
    rw [hbehind]
    constructor
    · intro hc
      exact nomatch eq_of_get?_empty hc
    · exact nofun

/-- A file that is new or written over keeps everything but itself. -/
theorem keeps_put_file {root : Entry} {place : List String} {name : String} {content : Bytes}
    {cs : List (String × Entry)} (h : root.get? place = some (dir cs))
    (hold : ∀ x, root.get? (place ++ [name]) = some x → ∃ c, x = file c) :
    Keeps (· = place ++ [name]) root (put (file content) (place ++ [name]) root) := by
  -- Behind a file or nothing there is nothing.
  have hbehind : ∀ n rest, root.get? (place ++ [name] ++ n :: rest) = none := by
    intro n rest
    rw [get?_append]
    cases hx : root.get? (place ++ [name]) with
    | none => rfl
    | some x =>
      obtain ⟨c, rfl⟩ := hold x hx
      rfl
  have hfile : ∀ rest x, root.get? (place ++ [name] ++ rest) = some x →
      rest = [] ∧ ∃ c, x = file c := by
    intro rest x hx
    cases rest with
    | nil => exact ⟨rfl, hold x (by simpa using hx)⟩
    | cons n rest => exact nomatch (hbehind n rest).symm.trans hx
  apply keeps_put h
  · intro rest ds hds
    obtain ⟨-, c, hc⟩ := hfile rest _ hds
    exact nomatch hc
  · intro rest t ht
    obtain ⟨-, c, hc⟩ := hfile rest _ ht
    exact nomatch hc
  · intro rest t ht
    cases rest <;> simp [get?] at ht
  · intro rest c hc
    obtain ⟨rfl, -⟩ := hfile rest _ hc
    exact ⟨content, get?_nil _⟩
  · intro rest c hfree
    cases rest with
    | nil => simp at hfree
    | cons n rest =>
      rw [hbehind]
      simp [get?]

end JavaOutline.Entry
