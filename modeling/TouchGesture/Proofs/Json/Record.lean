import Mathlib.Data.List.Forall2
import TouchGesture.Json.Decode
import TouchGesture.Proofs.Json.Double
import TouchGesture.Proofs.Json.Writing

/-! Records in JSON: their fields are read in the order in which they are written. A name is read as
it was written, and so is a small integer; a double is read as what its digits are scaled to. -/

namespace TouchGesture.Json

def Verbatim (s : String) : Prop := ∀ c ∈ s.toList, isVerbatim c

theorem escaped_verbatim {s : String} (plain : Verbatim s) : escaped s.toList = s.toList := by
  have each : ∀ c ∈ s.toList,
      (if isVerbatim c then [c] else '\\' :: 'u' :: Text.hexText 4 c.toNat) = [c] :=
    fun c member => if_pos (plain c member)
  rw [escaped, List.flatMap_congr each, List.flatMap_singleton']

theorem body_verbatim {s : String} (plain : Verbatim s) : Body s.toList :=
  escaped_verbatim plain ▸ body_escaped s.toList

theorem characters_verbatim {s : String} (plain : Verbatim s) : characters s.toList = .ok s := by
  have same := unescape?_escaped s.toList
  rw [escaped_verbatim plain] at same
  simp only [characters, same, String.ofList_toList]

theorem writable_plain {s : String} (plain : Verbatim s) : Writable (ofPlain s) :=
  .string (body_verbatim plain)

theorem holdable_plain {s : String} (plain : Verbatim s) (depth : Nat) :
    holdable depth (ofPlain s) := by
  have same := unescape?_escaped s.toList
  rw [escaped_verbatim plain] at same
  rw [ofPlain, holdable, same]
  rfl

theorem writable_ofNat (n : Nat) : Writable (ofNat n) := by
  rw [ofNat, ← Numeral.ofInt_natCast]
  exact .number (Numeral.plain_ofInt n)

theorem amount?_ofNat {n : Nat} (fits : n < UInt64.size) :
    (Numeral.ofNat n).amount? = some (.integer n) := by
  rw [← Numeral.ofInt_natCast]
  exact Numeral.amount?_ofInt (Int.natCast_nonneg n) (by exact_mod_cast fits)

theorem unsigned_ofNat {size n : Nat} {kind : String} (narrow : size ≤ UInt64.size)
    (fits : n < size) :
    unsigned size kind (ofNat n) = .ok n := by
  have inside : 0 ≤ (n : Int) ∧ (n : Int) < size :=
    ⟨Int.natCast_nonneg n, by exact_mod_cast fits⟩
  simp only [unsigned, ofNat, amount, amount?_ofNat (fits.trans_le narrow), bind, Except.bind]
  exact if_pos inside

theorem holdable_ofNat {n : Nat} (fits : n < UInt64.size) (depth : Nat) :
    holdable depth (ofNat n) := by
  rw [ofNat, holdable, amount?_ofNat fits]
  rfl

section Double

variable {x : Float}

theorem exists_number (finite : x.isFinite) :
    ∃ n : Numeral, n.Plain ∧ ofFloat x = .number n ∧
      n.amount?.map Amount.toFloat = reread? x := by
  have found : ∀ n, Numeral.ofFloat? x = some n → n.Plain →
      ∃ n : Numeral, n.Plain ∧ ofFloat x = .number n ∧
        n.amount?.map Amount.toFloat = reread? x := by
    intro n written plain
    refine ⟨n, plain, ?_, ?_⟩
    · simp only [ofFloat, written]
    · simp only [reread?, written, Option.bind_some]
  rcases ofFloat?_cases finite with ⟨s, -, written⟩ | ⟨s, m, q, positive, -, written⟩
  · exact found _ written (Numeral.plain_ofDecimal fun _ => rfl)
  · exact found _ written (Numeral.plain_ofDecimal (Decimal.tidy_normal _))

theorem writable_ofFloat (finite : x.isFinite) : Writable (ofFloat x) := by
  obtain ⟨n, plain, number, -⟩ := exists_number finite
  exact number ▸ .number plain

theorem double_ofFloat {y : Float} (finite : x.isFinite) (again : reread? x = some y) :
    double (ofFloat x) = .ok y := by
  obtain ⟨n, -, number, same⟩ := exists_number finite
  rw [again, Option.map_eq_some_iff] at same
  obtain ⟨a, amounts, rfl⟩ := same
  simp only [number, double, amount, amounts]
  rfl

theorem holdable_ofFloat (finite : x.isFinite) (depth : Nat) : holdable depth (ofFloat x) := by
  obtain ⟨n, -, number, same⟩ := exists_number finite
  obtain ⟨y, again⟩ := exists_reread? finite
  rw [again, Option.map_eq_some_iff] at same
  obtain ⟨a, amounts, -⟩ := same
  rw [number, holdable, amounts]
  rfl

end Double

section Record

variable (fields : List (String × Json))

theorem writable_record (names : ∀ name ∈ fields.map Prod.fst, Verbatim name)
    (items : ∀ f ∈ fields, Writable f.2) : Writable (record fields) := by
  have keys : ∀ f ∈ fields.map (fun f => (f.1.toList, f.2)), Body f.1 := by
    intro f member
    obtain ⟨g, listed, rfl⟩ := List.mem_map.mp member
    exact body_verbatim (names g.1 (List.mem_map_of_mem listed))
  have values : ∀ f ∈ fields.map (fun f => (f.1.toList, f.2)), Writable f.2 := by
    intro f member
    obtain ⟨g, listed, rfl⟩ := List.mem_map.mp member
    exact items g listed
  have writable := Writable.object keys values
  rwa [List.map_map] at writable

theorem holdable_record (names : ∀ name ∈ fields.map Prod.fst, Verbatim name) {depth : Nat}
    (items : ∀ f ∈ fields, holdable (depth + 1) f.2) (shallow : depth + 1 < 128) :
    holdable depth (record fields) := by
  simp only [record, holdable, shallow, decide_true, Bool.true_and, Bool.and_true]
  induction fields with
  | nil => rfl
  | cons f fields ih =>
      rw [List.map_cons, List.forall_mem_cons] at names
      rw [List.forall_mem_cons] at items
      rw [List.map_cons, holdableFields, holdable_plain names.1, items.1, ih names.2 items.2]
      rfl

theorem foldFields_record {σ : Type} (names : ∀ name ∈ fields.map Prod.fst, Verbatim name)
    (start : σ) (take : σ → String → Json → Decoded σ) :
    foldFields (fields.map fun f => (ofPlain f.1, f.2)) true start take =
      fields.foldlM (fun state f => take state f.1 f.2) start := by
  simp only [foldFields, if_true, bind_pure]
  induction fields generalizing start with
  | nil => rfl
  | cons f fields ih =>
      simp only [List.map_cons, List.forall_mem_cons] at names
      have key : keyName (ofPlain f.1) = .ok f.1 := characters_verbatim names.1
      simp only [List.map_cons, List.foldlM_cons, key]
      exact bind_congr fun state => ih names.2 state

end Record

section Tells

/-- A JSON value that can be written down, and what it means to a reader. -/
structure Tells {α : Type} (meaning : Json → Decoded α) (j : Json) (a : α) : Prop where
  writable : Writable j
  means : meaning j = .ok a

theorem tells_word32 (n : UInt32) : Tells word32 (ofNat n.toNat) n where
  writable := writable_ofNat _
  means := by
    rw [word32, unsigned_ofNat (by decide) n.toNat_lt_size]
    exact congrArg Except.ok UInt32.ofNat_toNat

theorem tells_word64 (n : UInt64) : Tells word64 (ofNat n.toNat) n where
  writable := writable_ofNat _
  means := by
    rw [word64, unsigned_ofNat le_rfl n.toNat_lt_size]
    exact congrArg Except.ok UInt64.ofNat_toNat

variable {α β : Type} {meaning : Json → Decoded α} {j : Json} {a : α}

theorem exists_forall₂ {R : β → α → Prop} {xs : List β}
    (each : ∀ x ∈ xs, ∃ y, R x y) :
    ∃ ys, List.Forall₂ R xs ys := by
  induction xs with
  | nil => exact ⟨[], .nil⟩
  | cons x xs ih =>
      rw [List.forall_mem_cons] at each
      obtain ⟨y, first⟩ := each.1
      obtain ⟨ys, others⟩ := ih each.2
      exact ⟨y :: ys, .cons first others⟩

theorem tells_list {R : β → α → Prop} {write : β → Json} {xs : List β} {ys : List α}
    (each : ∀ x ∈ xs, ∀ y, R x y → Tells meaning (write x) y)
    (again : List.Forall₂ R xs ys) :
    Tells (listOf meaning) (list write xs) ys := by
  have items : (∀ j ∈ xs.map write, Writable j) ∧ (xs.map write).mapM meaning = .ok ys := by
    induction again with
    | nil => exact ⟨nofun, rfl⟩
    | cons first _ ih =>
        rw [List.forall_mem_cons] at each
        have tells := each.1 _ first
        have others := ih each.2
        constructor
        · rw [List.map_cons, List.forall_mem_cons]
          exact ⟨tells.writable, others.1⟩
        · rw [List.map_cons, List.mapM_cons, tells.means, others.2]
          rfl
  refine ⟨.array items.1, ?_⟩
  simp only [listOf, list, items.2]
  rfl

theorem Tells.compact (tells : Tells meaning j a) : decode meaning j.compact = .ok a := by
  simp only [decode, ofText_compact tells.writable, tells.means]
  rfl

theorem Tells.pretty (tells : Tells meaning j a) : decode meaning j.pretty = .ok a := by
  simp only [decode, ofText_pretty tells.writable, tells.means]
  rfl

end Tells

end TouchGesture.Json
