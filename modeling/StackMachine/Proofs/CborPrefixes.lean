import StackMachine.Cbor.Item

/-!
# CBOR items cut short

A read that succeeds gives the same when more bytes follow: it takes the same bytes and leaves all
the others, whatever lengths, nesting, tags and breaks it met. `Extends` says this of a reader. So
an item is never the beginning of another one, and bytes that are one item stop being one as soon as
some are missing at the end or some are added.
-/

namespace StackMachine.Cbor

variable {α β : Type} {read read' : List UInt8 → Option (α × List UInt8)}

/-- Whatever `read` reads, `read'` reads it too when more bytes follow, and leaves these. -/
def Extends (read read' : List UInt8 → Option (α × List UInt8)) : Prop :=
  ∀ ⦃bytes a rest⦄, read bytes = some (a, rest) →
    ∀ more, read' (bytes ++ more) = some (a, rest ++ more)

/-- What is made of the value does not matter. -/
theorem Extends.map (h : Extends read read') (f : α → β) :
    Extends (fun bytes => (read bytes).map fun (a, rest) => (f a, rest))
      (fun bytes => (read' bytes).map fun (a, rest) => (f a, rest)) := by
  intro bytes b rest done more
  obtain ⟨⟨a, rest'⟩, first, same⟩ := Option.map_eq_some_iff.1 done
  cases same
  simp [h first more]

/-- A reader may be refused beforehand. -/
theorem Extends.unless (h : Extends read read') (c : Prop) [Decidable c] :
    Extends (fun bytes => if c then none else read bytes)
      (fun bytes => if c then none else read' bytes) := by
  intro bytes a rest done more
  split at done
  · cases done
  next allowed =>
    simp only [allowed, if_false]
    exact h done more

/-- A map is made of keys and values in turn. -/
theorem Extends.pairs {read read' : List UInt8 → Option (List Item × List UInt8)}
    (h : Extends read read') :
    Extends
      (fun bytes => match read bytes with
        | some (items, rest) => if items.length % 2 = 0 then some (Item.map items, rest) else none
        | none => none)
      (fun bytes => match read' bytes with
        | some (items, rest) => if items.length % 2 = 0 then some (Item.map items, rest) else none
        | none => none) := by
  intro bytes item rest done more
  cases first : read bytes with
  | none => simp [first] at done
  | some r =>
    obtain ⟨items, rest'⟩ := r
    simp only [first] at done
    simp only [h first more]
    split at done
    next even =>
      cases done
      exact if_pos even
    · cases done

/-- A value that is there already takes no bytes. -/
theorem extends_value (value : Option β) (f : β → α) :
    Extends (fun bytes => value.map fun b => (f b, bytes))
      (fun bytes => value.map fun b => (f b, bytes)) := by
  intro bytes a rest done more
  obtain ⟨b, known, same⟩ := Option.map_eq_some_iff.1 done
  cases same
  simp [known]

/-! ### Heads and strings -/

theorem extends_splitExact (n : Nat) :
    Extends (splitExact (α := UInt8) n) (splitExact n) := by
  induction n with
  | zero =>
    intro bytes taken rest done more
    cases done
    rfl
  | succ n ih =>
    intro bytes taken rest done more
    cases bytes with
    | nil => cases done
    | cons b bytes => exact ih.map (b :: ·) done more

theorem readHead_append {bytes rest : List UInt8} {major : Nat} {info : Info}
    (h : readHead bytes = some (major, info, rest)) (more : List UInt8) :
    readHead (bytes ++ more) = some (major, info, rest ++ more) := by
  cases bytes with
  | nil => cases h
  | cons b bytes =>
    simp only [readHead, List.cons_append] at h ⊢
    split at h
    case h_1 | h_2 | h_3 | h_4 =>
      obtain ⟨⟨taken, rest⟩, first, same⟩ := Option.map_eq_some_iff.1 h
      cases same
      simp [extends_splitExact _ first more]
    case h_5 | h_6 | h_7 => cases h
    case h_8 | h_9 =>
      cases h
      rfl

theorem head?_append_ne {bytes : List UInt8} (unbroken : bytes.head? ≠ some 0xFF)
    (nonempty : bytes ≠ []) (more : List UInt8) : (bytes ++ more).head? ≠ some 0xFF := by
  cases bytes with
  | nil => exact absurd rfl nonempty
  | cons b bytes => exact unbroken

theorem ne_nil_of_readHead {bytes : List UInt8} {r : Nat × Info × List UInt8}
    (head : readHead bytes = some r) : bytes ≠ [] := by
  rintro rfl
  cases head

/-- What does not begin with a break has to begin with a chunk. -/
theorem readChunks_of_unbroken {major fuel : Nat} {bytes : List UInt8}
    (unbroken : bytes.head? ≠ some 0xFF) :
    readChunks major (fuel + 1) bytes = (readHead bytes).bind fun head =>
      if head.1 ≠ major then none
      else head.2.1.number?.bind fun n => (splitExact n head.2.2).bind fun chunk =>
        (readChunks major fuel chunk.2).bind fun others =>
          some (chunk.1 :: others.1, others.2) := by
  cases bytes with
  | nil => rfl
  | cons b bytes =>
    have other : ¬ b = 0xFF := by simpa using unbroken
    cases head : readHead (b :: bytes) with
    | none => simp [readChunks, other, head]
    | some r =>
      simp only [readChunks, head, List.cons.injEq, other, false_and, imp_false, not_false_eq_true,
        implies_true]
      rfl

/-- More bytes allow for more chunks, which are not read. -/
theorem extends_readChunks (major : Nat) {fuel fuel' : Nat} (le : fuel ≤ fuel') :
    Extends (readChunks major fuel) (readChunks major fuel') := by
  induction fuel generalizing fuel' with
  | zero =>
    intro bytes chunks rest done
    cases done
  | succ fuel ih =>
    intro bytes chunks rest done more
    obtain ⟨fuel', rfl⟩ : ∃ k, fuel' = k + 1 := ⟨fuel' - 1, by omega⟩
    by_cases broken : bytes.head? = some 0xFF
    · obtain ⟨tail, rfl⟩ := List.head?_eq_some_iff.1 broken
      cases done
      rfl
    rw [readChunks_of_unbroken broken] at done
    obtain ⟨⟨type, info, content⟩, head, done⟩ := Option.bind_eq_some_iff.1 done
    have unbroken := head?_append_ne broken (ne_nil_of_readHead head) more
    rw [readChunks_of_unbroken unbroken, readHead_append head more, Option.bind_some]
    split at done
    · cases done
    next same =>
      rw [if_neg same]
      simp only [Option.bind_eq_some_iff] at done ⊢
      obtain ⟨n, number, ⟨chunk, content'⟩, first, ⟨chunks, rest⟩, others, same⟩ := done
      cases same
      exact ⟨n, number, _, extends_splitExact n first more, _, ih (by omega) others more, rfl⟩

theorem extends_readString (major : Nat) (info : Info) :
    Extends (readString major info) (readString major info) := by
  intro bytes chunks rest done more
  unfold readString at done ⊢
  split at done
  next n _ => exact (extends_splitExact n).map ([·]) done more
  next => exact extends_readChunks major (by simp) done more

/-! ### Items -/

/-- All readers of items read the same with more fuel and more bytes. -/
structure Steady (fuel fuel' : Nat) : Prop where
  item : ∀ nesting isTagged,
    Extends (readItem fuel nesting isTagged) (readItem fuel' nesting isTagged)
  items : ∀ nesting n before,
    Extends (readItems fuel nesting n before) (readItems fuel' nesting n before)
  untilBreak : ∀ nesting room before,
    Extends (readUntilBreak fuel nesting room before) (readUntilBreak fuel' nesting room before)

variable {fuel fuel' : Nat}

theorem Steady.readItem_succ (steady : Steady fuel fuel') (nesting : Nat) (isTagged : Bool) :
    Extends (readItem (fuel + 1) nesting isTagged) (readItem (fuel' + 1) nesting isTagged) := by
  intro bytes item rest done more
  cases head : readHead bytes with
  | none => simp [readItem, head] at done
  | some r =>
    obtain ⟨major, info, content⟩ := r
    have head' := readHead_append head more
    rcases major with _ | _ | _ | _ | _ | _ | _ | major <;>
      simp only [readItem, head, Nat.zero_add, Nat.reduceAdd] at done <;>
      simp only [readItem, head', Nat.zero_add, Nat.reduceAdd]
    · exact extends_value info.number? Item.unsigned done more
    · exact extends_value info.number? Item.negative done more
    · exact (extends_readString 2 info).map Item.bytes done more
    · exact (extends_readString 3 info).map Item.text done more
    · cases number : info.number? with
      | some n =>
        simp only [number] at done ⊢
        have read := (steady.items (nesting + 1) n []).map Item.array
        exact (read.unless (maxLength < n)).unless (maxNesting ≤ nesting) done more
      | none =>
        simp only [number] at done ⊢
        have read := (steady.untilBreak (nesting + 1) maxLength []).map Item.array
        exact read.unless (maxNesting ≤ nesting) done more
    · cases number : info.number? with
      | some n =>
        simp only [number] at done ⊢
        have read := (steady.items (nesting + 1) (2 * n) []).map Item.map
        exact (read.unless (maxLength < n)).unless (maxNesting ≤ nesting) done more
      | none =>
        simp only [number] at done ⊢
        have read := (steady.untilBreak (nesting + 1) (2 * maxLength) []).pairs
        exact read.unless (maxNesting ≤ nesting) done more
    · cases number : info.number? with
      | some tag =>
        simp only [number] at done ⊢
        have read := (steady.item (if isTagged then nesting + 1 else nesting) true).map
          (Item.tagged tag)
        exact read.unless (maxNesting < if isTagged then nesting + 1 else nesting) done more
      | none => simp [number] at done
    · exact extends_value (simpleItem info) id done more

theorem Steady.readItems_succ (steady : Steady fuel fuel') (nesting n : Nat) (before : List Item) :
    Extends (readItems (fuel + 1) nesting n before) (readItems (fuel' + 1) nesting n before) := by
  intro bytes items rest done more
  cases n with
  | zero =>
    simp only [readItems] at done ⊢
    cases done
    rfl
  | succ n =>
    simp only [readItems] at done ⊢
    cases first : readItem fuel nesting false bytes with
    | none => simp [first] at done
    | some r =>
      obtain ⟨item, rest'⟩ := r
      simp only [first] at done
      simp only [steady.item _ _ first more]
      exact steady.items nesting n (item :: before) done more

/-- What does not begin with a break has to begin with an item, and there has to be room for it. -/
theorem exists_of_readUntilBreak {nesting room : Nat} {before : List Item} {bytes : List UInt8}
    {r : List Item × List UInt8} (unbroken : bytes.head? ≠ some 0xFF)
    (h : readUntilBreak (fuel + 1) nesting room before bytes = some r) :
    ∃ left item rest, room = left + 1 ∧ readItem fuel nesting false bytes = some (item, rest) ∧
      readUntilBreak fuel nesting left (item :: before) rest = some r := by
  rw [readUntilBreak.eq_def] at h
  simp only at h
  split at h
  · simp at unbroken
  · split at h
    next first => exact ⟨_, _, _, rfl, first, h⟩
    · cases h

theorem readUntilBreak_of_item {nesting room : Nat} {before : List Item} {item : Item}
    {bytes rest : List UInt8} (unbroken : bytes.head? ≠ some 0xFF)
    (first : readItem fuel nesting false bytes = some (item, rest)) :
    readUntilBreak (fuel + 1) nesting (room + 1) before bytes =
      readUntilBreak fuel nesting room (item :: before) rest := by
  refine readUntilBreak.eq_3 _ _ _ _ _ _ _ ?_ first
  rintro tail rfl
  simp at unbroken

theorem Steady.readUntilBreak_succ (steady : Steady fuel fuel') (nesting room : Nat)
    (before : List Item) :
    Extends (readUntilBreak (fuel + 1) nesting room before)
      (readUntilBreak (fuel' + 1) nesting room before) := by
  intro bytes items rest done more
  by_cases broken : bytes.head? = some 0xFF
  · obtain ⟨tail, rfl⟩ := List.head?_eq_some_iff.1 broken
    simp only [readUntilBreak, List.cons_append] at done ⊢
    cases done
    rfl
  obtain ⟨left, item, rest', rfl, first, others⟩ := exists_of_readUntilBreak broken done
  have first' := steady.item _ _ first more
  have nonempty : bytes ≠ [] := by
    rintro rfl
    cases fuel <;> simp [readItem, readHead] at first
  rw [readUntilBreak_of_item (head?_append_ne broken nonempty more) first']
  exact steady.untilBreak _ _ _ others more

theorem steady_of_le (le : fuel ≤ fuel') : Steady fuel fuel' := by
  induction fuel generalizing fuel' with
  | zero =>
    constructor <;> intros <;> intro bytes a rest done <;>
      simp [readItem, readItems, readUntilBreak] at done
  | succ fuel ih =>
    obtain ⟨fuel', rfl⟩ : ∃ k, fuel' = k + 1 := ⟨fuel' - 1, by omega⟩
    have steady : Steady fuel fuel' := ih (by omega)
    exact ⟨steady.readItem_succ, steady.readItems_succ, steady.readUntilBreak_succ⟩

/-! ### Whole inputs -/

/-- One item is never the beginning of another. -/
theorem decode?_append {bytes more : List UInt8} {item : Item}
    (h : Item.decode? bytes = some item) (nonempty : more ≠ []) :
    Item.decode? (bytes ++ more) = none := by
  obtain ⟨b, more, rfl⟩ := List.exists_cons_of_ne_nil nonempty
  unfold Item.decode? at h ⊢
  split at h
  next read =>
    have le : 2 * bytes.length + 2 ≤ 2 * (bytes ++ b :: more).length + 2 := by
      rw [List.length_append]
      omega
    rw [(steady_of_le le).item 0 false read]
    rfl
  · cases h

end StackMachine.Cbor
