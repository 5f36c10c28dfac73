import SieveChain.Toml.Document

/-!
# The keys of a document

No key stands twice in the table of a document, so what stands under a key is what is found when
the key is looked up.
-/

namespace SieveChain.Toml

variable {es es' : Entries} {k : Key} {i : Item}

namespace Entries

/-- No key stands twice. -/
def Distinct (es : Entries) : Prop := (es.map Prod.fst).Nodup

theorem distinct_nil : Distinct [] := List.nodup_nil

theorem item?_cons (e : Key × Item) (es : Entries) (k : Key) :
    item? (e :: es) k = if k = e.1 then some e.2 else item? es k := by
  obtain ⟨k', i⟩ := e
  unfold item?
  by_cases hk : k = k'
  · subst hk
    rw [List.lookup_cons_self, if_pos rfl]
  · rw [List.lookup_cons, beq_false_of_ne hk, if_neg hk]

theorem item?_eq_none : es.item? k = none ↔ k ∉ es.map Prod.fst := by
  rw [item?, List.lookup_eq_none_iff, List.mem_map]
  constructor
  · rintro h ⟨e, he, rfl⟩
    exact bne_iff_ne.1 (h e he) rfl
  · intro h e he
    exact bne_iff_ne.2 fun heq => h ⟨e, he, heq.symm⟩

/-- In a table with distinct keys an item is found under its key. -/
theorem item?_eq_some (h : es.Distinct) : es.item? k = some i ↔ (k, i) ∈ es := by
  induction es with
  | nil => simp [item?]
  | cons e es ih =>
    obtain ⟨hk, hrest⟩ := List.nodup_cons.1 h
    obtain ⟨k', i'⟩ := e
    rw [item?_cons, List.mem_cons]
    by_cases heq : k = k'
    · subst heq
      have habsent : (k, i) ∉ es := fun hmem => hk (List.mem_map.2 ⟨_, hmem, rfl⟩)
      simp [habsent, eq_comm]
    · simp [heq, ih hrest]

theorem Distinct.add (h : es.Distinct) (hk : es.item? k = none) (i : Item) :
    (es.add k i).Distinct := by
  unfold Distinct Entries.add
  rw [List.map_append]
  refine List.nodup_append.2 ⟨h, List.pairwise_singleton _ k, ?_⟩
  rintro key hkey key' hkey' rfl
  cases List.mem_singleton.1 hkey'
  exact item?_eq_none.1 hk hkey

theorem Distinct.replace (h : es.Distinct) (k : Key) (i : Item) : (es.replace k i).Distinct := by
  have hkeys : (es.replace k i).map Prod.fst = es.map Prod.fst := by
    unfold Entries.replace
    rw [List.map_map]
    refine List.map_congr_left fun e _ => ?_
    dsimp only [Function.comp_apply]
    split
    · next hk => exact (eq_of_beq hk).symm
    · rfl
  unfold Distinct
  rw [hkeys]
  exact h

theorem Distinct.remove (h : es.Distinct) (k : Key) : (es.remove k).Distinct :=
  h.sublist (List.filter_sublist.map Prod.fst)

end Entries

open Entries

/-! ## How a document is put together -/

/-- A change of a table that keeps its keys apart. -/
def Tidy {α : Type} (change : Origin → Entries → Option (Entries × α)) : Prop :=
  ∀ origin es es' a, es.Distinct → change origin es = some (es', a) → es'.Distinct

/-- A change further down does not bring a key twice into the table above. -/
theorem Tidy.descend {α : Type} {change : Origin → Entries → Option (Entries × α)}
    (hc : Tidy change) (byKey : Bool) (path : List Key) : Tidy (descend byKey change path) := by
  intro origin es es' a h heq
  cases path with
  | nil => exact hc origin es es' a h heq
  | cons k path =>
    rw [Toml.descend] at heq
    split at heq
    · next hk =>
      obtain ⟨⟨sub, a'⟩, -, heq⟩ := Option.bind_eq_some_iff.1 heq
      cases heq
      exact h.add hk _
    · cases heq
    · split at heq
      · cases heq
      · obtain ⟨⟨sub, a'⟩, -, heq⟩ := Option.bind_eq_some_iff.1 heq
        cases heq
        exact h.replace _ _
    · cases heq
    · obtain ⟨⟨last, a'⟩, -, heq⟩ := Option.bind_eq_some_iff.1 heq
      cases heq
      exact h.replace _ _

theorem Entries.Distinct.addValue {path : List Key} {v : Value} (h : es.Distinct)
    (heq : addValue? es path v = some es') : es'.Distinct := by
  obtain ⟨k, -, heq⟩ := Option.bind_eq_some_iff.1 heq
  obtain ⟨⟨table, u⟩, htable, heq⟩ := Option.bind_eq_some_iff.1 heq
  cases heq
  refine Tidy.descend ?_ _ _ _ _ _ _ h htable
  intro origin es es' u h hplace
  dsimp only at hplace
  split at hplace
  · cases hplace
  · split at hplace
    · cases hplace
    · next hk =>
      cases hplace
      exact h.add (Option.not_isSome_iff_eq_none.1 hk) _

namespace Draft

/-- The tables of a draft that may come to be the table of the document keep their keys apart. -/
structure Distinct (d : Draft) : Prop where
  root : d.root.Distinct
  current : d.path = [] → d.current.Distinct

theorem tidy_place (d : Draft) (k : Key) : Tidy (d.place k) := by
  intro origin es es' u h heq
  unfold place at heq
  split at heq
  · next hk =>
    cases heq
    exact h.add hk _
  · cases heq
    exact h.replace _ _
  · cases heq
  · next hk =>
    cases heq
    exact h.add hk _
  · cases heq
  · cases heq
    exact h.replace _ _
  · cases heq

theorem tidy_claim (k : Key) : Tidy (claim k) := by
  intro origin es es' sub h heq
  unfold claim at heq
  split at heq
  · cases heq
    exact h
  · cases heq
    exact h.remove k
  · cases heq

theorem tidy_claimList (k : Key) : Tidy (claimList k) := by
  intro origin es es' u h heq
  unfold claimList at heq
  split at heq
  · next hk =>
    cases heq
    exact h.add hk _
  · cases heq
    exact h
  · cases heq

variable {d d' : Draft}

theorem Distinct.close (h : d.Distinct) (heq : d.close = some es) : es.Distinct := by
  unfold Draft.close at heq
  split at heq
  · next hp =>
    cases heq
    exact h.current (List.getLast?_eq_none_iff.1 hp)
  · next k hp =>
    obtain ⟨⟨root, u⟩, hroot, heq⟩ := Option.map_eq_some_iff.1 heq
    cases heq
    exact (d.tidy_place k).descend _ _ _ _ _ _ h.root hroot

/-- A header leads to some table, so the table it opens is not the root. -/
theorem ne_nil_of_getLast? {path : List Key} (h : path.getLast? = some k) : path ≠ [] := by
  rintro rfl
  cases h

theorem Distinct.take (h : d.Distinct) {s : Statement} (heq : d.take s = some d') :
    d'.Distinct := by
  cases s with
  | entry path v =>
    obtain ⟨current, hcurrent, heq⟩ := Option.bind_eq_some_iff.1 heq
    cases heq
    exact ⟨h.root, fun hp => (h.current hp).addValue hcurrent⟩
  | table path =>
    obtain ⟨root, hroot, heq⟩ := Option.bind_eq_some_iff.1 heq
    obtain ⟨k, hk, heq⟩ := Option.bind_eq_some_iff.1 heq
    obtain ⟨⟨root', current⟩, hroot', heq⟩ := Option.bind_eq_some_iff.1 heq
    cases heq
    exact ⟨(tidy_claim k).descend _ _ _ _ _ _ (h.close hroot) hroot',
      fun hp => absurd hp (ne_nil_of_getLast? hk)⟩
  | element path =>
    obtain ⟨root, hroot, heq⟩ := Option.bind_eq_some_iff.1 heq
    obtain ⟨k, hk, heq⟩ := Option.bind_eq_some_iff.1 heq
    obtain ⟨⟨root', u⟩, hroot', heq⟩ := Option.bind_eq_some_iff.1 heq
    cases heq
    exact ⟨(tidy_claimList k).descend _ _ _ _ _ _ (h.close hroot) hroot', fun _ => distinct_nil⟩

theorem Distinct.takeAll {statements : List Statement} (h : d.Distinct)
    (heq : statements.foldlM Draft.take d = some d') : d'.Distinct := by
  induction statements generalizing d with
  | nil =>
    cases heq
    exact h
  | cons s statements ih =>
    rw [List.foldlM_cons] at heq
    obtain ⟨next, hnext, heq⟩ := Option.bind_eq_some_iff.1 heq
    exact ih (h.take hnext) heq

end Draft

/-- The keys of a document are distinct. -/
theorem distinct_parse {cs : List Char} (h : parse cs = some es) : es.Distinct := by
  obtain ⟨statements, -, h⟩ := Option.bind_eq_some_iff.1 h
  obtain ⟨draft, hdraft, h⟩ := Option.bind_eq_some_iff.1 h
  have hnew : ({} : Draft).Distinct := ⟨distinct_nil, fun _ => distinct_nil⟩
  exact (hnew.takeAll hdraft).close h

end SieveChain.Toml
