import Mathlib.Data.Finmap

/-!
Finite maps built by inserting entries one by one. Inserting what a map was
enumerated as, in whatever order, gives the map (`insertAll_entries`). A map of
lists into which entries are pushed holds under each key what was pushed there, in
its order (`lookup_pushAll`).
-/
namespace Directswarm.Maps

universe u v w
variable {K : Type u} {V : Type v} [DecidableEq K]

/-- Inserting entries in their order, later ones replacing earlier ones. -/
def insertAll (entries : List (Σ _ : K, V)) (out : Finmap fun _ : K => V) : Finmap fun _ : K => V :=
  entries.foldl (fun out e => out.insert e.1 e.2) out

@[simp] theorem insertAll_nil (out : Finmap fun _ : K => V) : insertAll [] out = out := rfl
@[simp] theorem insertAll_cons (e : Σ _ : K, V) (rest : List (Σ _ : K, V)) (out : Finmap fun _ : K => V) :
    insertAll (e :: rest) out = insertAll rest (out.insert e.1 e.2) := rfl

/-- The other keys are left alone. -/
theorem lookup_insertAll_absent {key : K} {entries : List (Σ _ : K, V)} (absent : key ∉ entries.map (·.1))
    (out : Finmap fun _ : K => V) : (insertAll entries out).lookup key = out.lookup key := by
  induction entries generalizing out with
  | nil => rfl
  | cons e rest ih =>
    rw [List.map_cons,List.mem_cons,not_or] at absent
    rw [insertAll_cons,ih absent.2,Finmap.lookup_insert_of_ne _ absent.1]

/-- Entries of distinct keys are all found. -/
theorem lookup_insertAll_member {e : Σ _ : K, V} {entries : List (Σ _ : K, V)} (distinct : (entries.map (·.1)).Nodup)
    (member : e ∈ entries) (out : Finmap fun _ : K => V) : (insertAll entries out).lookup e.1 = some e.2 := by
  induction entries generalizing out with
  | nil => cases member
  | cons head rest ih =>
    rw [List.map_cons,List.nodup_cons] at distinct
    rw [insertAll_cons]
    rcases List.mem_cons.mp member with rfl | later
    · rw [lookup_insertAll_absent distinct.1,Finmap.lookup_insert]
    · exact ih distinct.2 later _

/-- What is found was inserted, or was there before. -/
theorem mem_of_lookup_insertAll {key : K} {v : V} {entries : List (Σ _ : K, V)} {out : Finmap fun _ : K => V}
    (found : (insertAll entries out).lookup key = some v) :
    (⟨key,v⟩ : Σ _ : K, V) ∈ entries ∨ out.lookup key = some v := by
  induction entries generalizing out with
  | nil => exact .inr found
  | cons e rest ih =>
    rcases ih found with later | before
    · exact .inl (List.mem_cons_of_mem _ later)
    · by_cases same : key = e.1
      · subst same
        rw [Finmap.lookup_insert] at before
        cases before
        exact .inl List.mem_cons_self
      · rw [Finmap.lookup_insert_of_ne _ same] at before
        exact .inr before

/-- The last entry of a key is what is found under it. -/
theorem lookup_insertAll (key : K) (entries : List (Σ _ : K, V)) (out : Finmap fun _ : K => V) :
    (insertAll entries out).lookup key =
      (entries.filterMap fun e => if e.1 = key then some e.2 else none).getLast?.or (out.lookup key) := by
  induction entries generalizing out with
  | nil => rfl
  | cons e rest ih =>
    rw [insertAll_cons,ih,List.filterMap_cons]
    by_cases same : e.1 = key
    · subst same
      rw [if_pos rfl,Finmap.lookup_insert]
      simp only [List.getLast?_cons]
      cases (rest.filterMap fun d => if d.1 = e.1 then some d.2 else none).getLast? <;> rfl
    · rw [if_neg same,Finmap.lookup_insert_of_ne _ (Ne.symm same)]

omit [DecidableEq K] in
theorem keys_nodup {map : Finmap fun _ : K => V} {entries : List (Σ _ : K, V)} (all : (entries : Multiset _) = map.entries) :
    (entries.map (·.1)).Nodup := by
  have nodup := map.nodupKeys
  rw [← all] at nodup
  exact Multiset.coe_nodupKeys.mp nodup

theorem mem_iff_lookup {map : Finmap fun _ : K => V} {entries : List (Σ _ : K, V)} (all : (entries : Multiset _) = map.entries)
    {key : K} {v : V} : (⟨key,v⟩ : Σ _ : K, V) ∈ entries ↔ map.lookup key = some v := by
  rw [Finmap.lookup_eq_some_iff,← all,Multiset.mem_coe]

/-- Any enumeration of a map, inserted entry by entry, is the map. -/
theorem insertAll_entries {map : Finmap fun _ : K => V} {entries : List (Σ _ : K, V)}
    (all : (entries : Multiset _) = map.entries) : insertAll entries ∅ = map := by
  refine Finmap.ext_lookup fun key => ?_
  cases found : map.lookup key with
  | none =>
    have absent : key ∉ entries.map (·.1) := by
      intro member
      obtain ⟨⟨k,v⟩,inList,rfl⟩ := List.mem_map.mp member
      rw [(mem_iff_lookup all).mp inList] at found
      cases found
    rw [lookup_insertAll_absent absent]; rfl
  | some v => exact lookup_insertAll_member (keys_nodup all) ((mem_iff_lookup all).mpr found) ∅

/-! ### Lists under keys -/

/-- An item joins the list under its key. -/
def pushAt (out : AList fun _ : K => List V) (key : K) (v : V) : AList fun _ : K => List V :=
  out.insert key ((out.lookup key).getD [] ++ [v])

def pushAll (entries : List (K × V)) (out : AList fun _ : K => List V) : AList fun _ : K => List V :=
  entries.foldl (fun out e => pushAt out e.1 e.2) out

theorem mem_pushAll {key : K} {entries : List (K × V)} {out : AList fun _ : K => List V} :
    key ∈ pushAll entries out ↔ key ∈ out ∨ ∃ v, (key,v) ∈ entries := by
  induction entries generalizing out with
  | nil => simp [pushAll]
  | cons e rest ih =>
    have onward : pushAll (e :: rest) out = pushAll rest (pushAt out e.1 e.2) := rfl
    rw [onward,ih,pushAt,AList.mem_insert]
    constructor
    · rintro ((rfl | old) | ⟨v,later⟩)
      · exact .inr ⟨e.2,List.mem_cons_self⟩
      · exact .inl old
      · exact .inr ⟨v,List.mem_cons_of_mem _ later⟩
    · rintro (old | ⟨v,member⟩)
      · exact .inl (.inr old)
      · rcases List.mem_cons.mp member with rfl | later
        · exact .inl (.inl rfl)
        · exact .inr ⟨v,later⟩

theorem lookup_pushAll (key : K) (entries : List (K × V)) (out : AList fun _ : K => List V) :
    ((pushAll entries out).lookup key).getD [] =
      (out.lookup key).getD [] ++ (entries.filter fun e => e.1 = key).map Prod.snd := by
  induction entries generalizing out with
  | nil => simp [pushAll]
  | cons e rest ih =>
    have onward : pushAll (e :: rest) out = pushAll rest (pushAt out e.1 e.2) := rfl
    rw [onward,ih,pushAt]
    by_cases same : e.1 = key
    · subst same
      simp
    · rw [AList.lookup_insert_ne (Ne.symm same)]
      simp [same]

section
variable {W : Type w}

/-- Each value of a map is replaced, with its key in view. -/
def mapValues (f : K → V → W) (map : AList fun _ : K => V) : AList fun _ : K => W where
  entries := map.entries.map fun e => ⟨e.1,f e.1 e.2⟩
  nodupKeys := by
    have keys := map.nodupKeys
    unfold List.NodupKeys List.keys at keys ⊢
    rw [List.map_map]
    exact keys

theorem lookup_mapValues (f : K → V → W) (map : AList fun _ : K => V) (key : K) :
    (mapValues f map).lookup key = (map.lookup key).map (f key) := by
  refine Option.ext fun v => ?_
  rw [← Option.mem_def,AList.mem_lookup_iff]
  simp only [mapValues,List.mem_map,Option.map_eq_some_iff]
  constructor
  · rintro ⟨⟨k,old⟩,member,same⟩
    cases same
    exact ⟨old,AList.mem_lookup_iff.mpr member,rfl⟩
  · rintro ⟨old,found,rfl⟩
    exact ⟨⟨key,old⟩,AList.mem_lookup_iff.mp found,rfl⟩

end

end Directswarm.Maps
