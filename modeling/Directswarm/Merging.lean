import Mathlib
import Directswarm.CacheFile
import Directswarm.Joins

/-!
What `upsert` makes of a topology cache (`topology.rs`). Up to RTTs and the order of
the underlays a cache is a map into a semilattice and `upsert` is its join
(`sightings_upsert`), so the order in which nodes are heard of does not matter. The
rest depends on it: the RTT is the last one measured, and the underlays of a record
stay where they are, with new ones behind them (`merging_is_join`). So the scheduler
goes on dialing the underlay that it dialed before (`dialable_kept`).
-/
namespace Directswarm.Merging
open Directswarm.Text Directswarm.Words Directswarm.PeerTable Directswarm.Proximity Directswarm.Routing
  Directswarm.CacheFile Directswarm.Joins

/-! ### A cache as a map into a semilattice -/

/-- When a node was last seen, whether it was dialed, and where it may be. -/
abbrev Sighting := Word × Bool × Set (List Char)

def sighting (r : NodeRecord) : Sighting := (r.last_seen_tick,r.dialed_ok,{u | u ∈ r.underlays})

/-- What is known of each overlay. -/
def sightings (cache : TopologyCache) (overlay : SwarmAddress) : WithBot Sighting :=
  match cache.nodes.lookup overlay with
  | some r => sighting r
  | none => ⊥

theorem sighting_refresh (existing record : NodeRecord) :
    sighting (existing.refresh record) = sighting existing ⊔ sighting record := by
  have ticks : (existing.refresh record).last_seen_tick = existing.last_seen_tick ⊔ record.last_seen_tick := rfl
  have flags : (existing.refresh record).dialed_ok = existing.dialed_ok ⊔ record.dialed_ok := rfl
  have texts : {u | u ∈ (existing.refresh record).underlays} = {u | u ∈ existing.underlays} ⊔ {u | u ∈ record.underlays} := by
    ext u
    exact mem_refresh
  rw [sighting,ticks,flags,texts]
  rfl

theorem sightings_upsert (cache : TopologyCache) (record : NodeRecord) :
    sightings (cache.upsert record) = sightings cache ⊔ entry record.overlay (sighting record) := by
  funext overlay
  by_cases same : overlay = record.overlay
  · subst same
    rw [sup_entry_self,sightings,sightings,nodes_upsert,AList.lookup_insert]
    cases cache.nodes.lookup record.overlay with
    | none => exact (bot_sup_eq _).symm
    | some existing => exact congrArg WithBot.some (sighting_refresh existing record)
  · rw [sup_entry_ne _ same,sightings,sightings,nodes_upsert,AList.lookup_insert_ne same]

/-! ### What is under an overlay -/

/-- The records of an overlay: the one that the cache has, and those that come. -/
def known (cache : TopologyCache) (records : List NodeRecord) (overlay : SwarmAddress) : List NodeRecord :=
  (cache.nodes.lookup overlay).toList ++ records.filter fun r => r.overlay = overlay

/-- The first record, refreshed with the others. -/
def merged : List NodeRecord → Option NodeRecord
  | [] => none
  | first :: rest => some (rest.foldl NodeRecord.refresh first)

theorem merged_isSome {records : List NodeRecord} : (merged records).isSome = true ↔ records ≠ [] := by
  cases records <;> simp [merged]

theorem lookup_upserts (cache : TopologyCache) (records : List NodeRecord) (overlay : SwarmAddress) :
    (records.foldl TopologyCache.upsert cache).nodes.lookup overlay = merged (known cache records overlay) := by
  induction records generalizing cache with
  | nil =>
    rw [List.foldl_nil,known]
    cases cache.nodes.lookup overlay <;> rfl
  | cons record rest ih =>
    rw [List.foldl_cons,ih,known,known,nodes_upsert]
    by_cases own : record.overlay = overlay
    · subst own
      rw [AList.lookup_insert,List.filter_cons_of_pos (by simp)]
      cases cache.nodes.lookup record.overlay <;> rfl
    · rw [AList.lookup_insert_ne (Ne.symm own),List.filter_cons_of_neg (by simpa using own)]

/-- What a record is that was made of others: its tick is the latest, it was dialed if
    one of them was, its underlays are all of theirs, and its RTT is the last measured. -/
structure MadeOf (records : List NodeRecord) (final : NodeRecord) : Prop where
  tick : IsGreatest {t | ∃ r ∈ records, r.last_seen_tick = t} final.last_seen_tick
  dialed : final.dialed_ok = records.any NodeRecord.dialed_ok
  underlays : ∀ u, u ∈ final.underlays ↔ ∃ r ∈ records, u ∈ r.underlays
  rtt : final.rtt_ms = (records.filterMap NodeRecord.rtt_ms).getLast?

theorem madeOf_single (r : NodeRecord) : MadeOf [r] r where
  tick := by simp
  dialed := by simp
  underlays := by simp
  rtt := by cases at_ : r.rtt_ms <;> simp [at_]

/-- One more record comes. -/
theorem madeOf_refresh {records : List NodeRecord} {final : NodeRecord} (made : MadeOf records final) (r : NodeRecord) :
    MadeOf (records ++ [r]) (final.refresh r) := by
  obtain ⟨⟨attained,latest⟩,dialed,underlays,rtt⟩ := made
  refine ⟨⟨?_,?_⟩,?_,?_,?_⟩
  · show ∃ x ∈ records ++ [r], x.last_seen_tick = max final.last_seen_tick r.last_seen_tick
    by_cases later : final.last_seen_tick ≤ r.last_seen_tick
    · exact ⟨r,List.mem_append_right _ List.mem_cons_self,(max_eq_right later).symm⟩
    · obtain ⟨x,member,same⟩ := attained
      exact ⟨x,List.mem_append_left _ member,same.trans (max_eq_left (le_of_not_ge later)).symm⟩
  · rintro t ⟨x,member,rfl⟩
    rcases List.mem_append.mp member with before | last
    · exact (latest ⟨x,before,rfl⟩).trans (le_max_left _ _)
    · rw [List.mem_singleton.mp last]
      exact le_max_right _ _
  · show (final.dialed_ok || r.dialed_ok) = _
    simp [dialed]
  · intro u
    rw [mem_refresh,underlays]
    simp [or_and_right,exists_or]
  · show (if r.rtt_ms.isSome then r.rtt_ms else final.rtt_ms) = _
    rw [List.filterMap_append,rtt]
    cases at_ : r.rtt_ms <;> simp [at_]

theorem madeOf_merged {records : List NodeRecord} {final : NodeRecord} (found : merged records = some final) :
    MadeOf records final := by
  cases records with
  | nil => cases found
  | cons first rest =>
    cases found
    induction rest using List.reverseRecOn with
    | nil => exact madeOf_single first
    | append_singleton rest r ih =>
      rw [List.foldl_append,← List.cons_append]
      exact madeOf_refresh ih r

/-! ### The order of the underlays -/

theorem prefix_refresh (existing record : NodeRecord) : existing.underlays <+: (existing.refresh record).underlays := by
  unfold NodeRecord.refresh
  generalize existing.underlays = before
  simp only
  induction record.underlays generalizing before with
  | nil => exact List.prefix_rfl
  | cons u rest ih =>
    rw [List.foldl_cons]
    by_cases there : u ∈ before
    · rw [if_pos there]
      exact ih before
    · rw [if_neg there]
      exact (List.prefix_append before [u]).trans (ih _)

theorem prefix_refreshes (existing : NodeRecord) (records : List NodeRecord) :
    existing.underlays <+: (records.foldl NodeRecord.refresh existing).underlays := by
  induction records generalizing existing with
  | nil => exact List.prefix_rfl
  | cons record rest ih => exact (prefix_refresh existing record).trans (ih _)

/-- A record that is there stays, and its underlays stay where they are. -/
theorem existing_kept {cache : TopologyCache} {overlay : SwarmAddress} {existing : NodeRecord}
    (found : cache.nodes.lookup overlay = some existing) (records : List NodeRecord) :
    ∃ final, (records.foldl TopologyCache.upsert cache).nodes.lookup overlay = some final ∧
      existing.underlays <+: final.underlays := by
  have after := lookup_upserts cache records overlay
  rw [known,found] at after
  exact ⟨_,after,prefix_refreshes existing _⟩

/-- The first underlay that can be dialed goes on to be the first one. -/
theorem dialable_kept {M : Type} {parse : List Char → Option M} {existing final : NodeRecord} {underlay : M}
    (extended : existing.underlays <+: final.underlays) (dials : dialable parse existing = some underlay) :
    dialable parse final = some underlay := by
  obtain ⟨new,same⟩ := extended
  unfold dialable at dials ⊢
  rw [← same,List.findSome?_append,dials]
  rfl

/-! ### Merging -/

/-- Up to RTTs and the order of underlays, a cache that takes in records is joined with
    them, whatever their order. A node is known when it was there or one of the records
    is its; then it has the latest tick, the flag and the underlays of all of them, and
    the RTT that was measured last. A record that was there keeps its underlays in their
    place and its RTT until another one is measured. -/
theorem merging_is_join (cache : TopologyCache) (records : List NodeRecord) :
    sightings (records.foldl TopologyCache.upsert cache) =
      sightings cache ⊔ (Multiset.map (fun r => entry r.overlay (sighting r)) records).sup ∧
    (∀ permuted : List NodeRecord, permuted.Perm records →
      sightings (permuted.foldl TopologyCache.upsert cache) = sightings (records.foldl TopologyCache.upsert cache)) ∧
    ∀ overlay,
      (((records.foldl TopologyCache.upsert cache).nodes.lookup overlay).isSome = true ↔
        (cache.nodes.lookup overlay).isSome = true ∨ ∃ r ∈ records, r.overlay = overlay) ∧
      (∀ final, (records.foldl TopologyCache.upsert cache).nodes.lookup overlay = some final →
        MadeOf (known cache records overlay) final) ∧
      ∀ existing, cache.nodes.lookup overlay = some existing →
        ∃ final, (records.foldl TopologyCache.upsert cache).nodes.lookup overlay = some final ∧
          existing.underlays <+: final.underlays ∧
          ((∀ r ∈ records, r.overlay = overlay → r.rtt_ms = none) → final.rtt_ms = existing.rtt_ms) := by
  refine ⟨view_foldl sightings_upsert cache records,fun permuted same => ?_,fun overlay => ⟨?_,?_,?_⟩⟩
  · exact view_foldl_same sightings_upsert cache same.subset same.symm.subset
  · rw [lookup_upserts,merged_isSome,known]
    cases cache.nodes.lookup overlay <;> simp
  · intro final found
    rw [lookup_upserts] at found
    exact madeOf_merged found
  · intro existing found
    obtain ⟨final,after,extended⟩ := existing_kept found records
    refine ⟨final,after,extended,fun unmeasured => ?_⟩
    rw [lookup_upserts] at after
    rw [(madeOf_merged after).rtt,known,found]
    have silent : (records.filter fun r => r.overlay = overlay).filterMap NodeRecord.rtt_ms = [] := by
      rw [List.filterMap_eq_nil_iff]
      intro r member
      obtain ⟨inside,own⟩ := List.mem_filter.mp member
      exact unmeasured r inside (by simpa using own)
    rw [List.filterMap_append,silent]
    cases at_ : existing.rtt_ms <;> simp [at_]

def someNode : SwarmAddress := List.Vector.replicate 32 0xab

/-- A node that was dialed, and gossip of another underlay of it, with an RTT. -/
def dialedRecord : NodeRecord := ⟨someNode,["/ip4/1.2.3.4/tcp/1".toList],none,1,true⟩
def gossiped : NodeRecord := ⟨someNode,["/ip4/5.6.7.8/tcp/9".toList],some 42,5,false⟩

/-- The gossip comes after the dial, or before it, or twice. -/
theorem merging_is_join_two :
    sightings ([gossiped,dialedRecord].foldl TopologyCache.upsert .new) =
      sightings ([dialedRecord,gossiped].foldl TopologyCache.upsert .new) ∧
    (∃ final, ([dialedRecord,gossiped].foldl TopologyCache.upsert .new).nodes.lookup someNode = some final ∧
      final.dialed_ok = true ∧ final.rtt_ms = some 42) ∧
    ∃ final, ([dialedRecord].foldl TopologyCache.upsert (.upsert .new gossiped)).nodes.lookup someNode = some final ∧
      gossiped.underlays <+: final.underlays ∧ final.rtt_ms = some 42 := by
  refine ⟨(merging_is_join .new [dialedRecord,gossiped]).2.1 _ (.swap _ _ _),?_,?_⟩
  · obtain ⟨final,found⟩ := Option.isSome_iff_exists.mp
      (((merging_is_join .new [dialedRecord,gossiped]).2.2 someNode).1.mpr (.inr ⟨dialedRecord,List.mem_cons_self,rfl⟩))
    have made := ((merging_is_join .new [dialedRecord,gossiped]).2.2 someNode).2.1 final found
    exact ⟨final,found,made.dialed,made.rtt⟩
  · obtain ⟨final,found,extended,kept⟩ := ((merging_is_join (.upsert .new gossiped) [dialedRecord]).2.2 someNode).2.2
      gossiped rfl
    refine ⟨final,found,extended,kept ?_⟩
    intro r member _
    rw [List.mem_singleton.mp member]
    rfl

end Directswarm.Merging
