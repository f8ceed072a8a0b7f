import FrontToc.Yaml.Value

/-!
# Equality of values is decidable

The order of a mapping counts here, unlike where values are compared as keys.
-/
namespace FrontToc.Yaml

mutual

/-- Whether two values are one and the same. -/
def Value.isEq : Value → Value → Bool
  | .null, .null => true
  | .bool a, .bool b => a = b
  | .int a, .int b => a = b
  | .float a, .float b => a = b
  | .str a, .str b => a = b
  | .seq a, .seq b => itemsEq a b
  | .map a, .map b => entriesEq a b
  | .tagged s a, .tagged t b => s = t && a.isEq b
  | _, _ => false

def itemsEq : List Value → List Value → Bool
  | [], [] => true
  | a :: as, b :: bs => a.isEq b && itemsEq as bs
  | _, _ => false

def entriesEq : List (Value × Value) → List (Value × Value) → Bool
  | [], [] => true
  | (k, v) :: as, (l, w) :: bs => k.isEq l && v.isEq w && entriesEq as bs
  | _, _ => false

end

mutual

theorem Value.eq_of_isEq (a b : Value) (h : a.isEq b = true) : a = b := by
  unfold Value.isEq at h
  split at h
  · rfl
  · rw [of_decide_eq_true h]
  · rw [of_decide_eq_true h]
  · rw [of_decide_eq_true h]
  · rw [of_decide_eq_true h]
  · rw [itemsEq_eq _ _ h]
  · rw [entriesEq_eq _ _ h]
  · rw [Bool.and_eq_true] at h
    rw [of_decide_eq_true h.1, Value.eq_of_isEq _ _ h.2]
  · cases h

theorem itemsEq_eq (as bs : List Value) (h : itemsEq as bs = true) : as = bs := by
  unfold itemsEq at h
  split at h
  · rfl
  · rw [Bool.and_eq_true] at h
    rw [Value.eq_of_isEq _ _ h.1, itemsEq_eq _ _ h.2]
  · cases h

theorem entriesEq_eq (as bs : List (Value × Value)) (h : entriesEq as bs = true) : as = bs := by
  unfold entriesEq at h
  split at h
  · rfl
  · rw [Bool.and_eq_true, Bool.and_eq_true] at h
    rw [Value.eq_of_isEq _ _ h.1.1, Value.eq_of_isEq _ _ h.1.2, entriesEq_eq _ _ h.2]
  · cases h

end

mutual

theorem Value.isEq_self (a : Value) : a.isEq a = true := by
  cases a <;> simp [Value.isEq, itemsEq_self, entriesEq_self, Value.isEq_self]

theorem itemsEq_self (as : List Value) : itemsEq as as = true := by
  cases as with
  | nil => rfl
  | cons a as => rw [itemsEq, Value.isEq_self, itemsEq_self]; rfl

theorem entriesEq_self (as : List (Value × Value)) : entriesEq as as = true := by
  match as with
  | [] => rfl
  | (k, v) :: as => rw [entriesEq, Value.isEq_self, Value.isEq_self, entriesEq_self]; rfl

end

instance : DecidableEq Value := fun a b =>
  decidable_of_iff (a.isEq b = true) ⟨Value.eq_of_isEq a b, fun h => h ▸ Value.isEq_self a⟩

end FrontToc.Yaml
