import Mathlib
import Directswarm.Etiquette
import Directswarm.Merging
import Directswarm.Notes

/-!
What a whole crawl amounts to (`ds-net/src/crawl.rs`). Peers are dialed in the order in
which they were first named, by the seeds and then by gossip, and each stop reason says
how much of that line was dialed: all of it where the frontier drained, as much as the
cap allows where the cap was met (`crawl_in_line`). The cache and the statistics are a
summary of what was heard and of the handshakes (`crawl_summed`): a node is known when
one of them is about it, verified when a handshake is, its RTT is the one of the last
handshake, which no gossip replaces, and its underlays are all that were named.
-/
namespace Directswarm.Survey
open Directswarm.Text Directswarm.PeerTable Directswarm.Proximity Directswarm.Routing Directswarm.Runs Directswarm.Notes
open Directswarm.CacheFile Directswarm.Merging Directswarm.Hive Directswarm.Etiquette

variable {A P : Type}

/-! ### First mentions -/

section Mentions
variable [DecidableEq P]

/-- `HashSet::insert` on a list that keeps the order. -/
def enlist (queued : List P) (p : P) : List P := if p ∈ queued then queued else queued ++ [p]

/-- Those who are new come behind, in the order of their first mention. -/
theorem foldl_enlist (queued mentions : List P) :
    mentions.foldl enlist queued = queued ++ (mentions.filter fun p => p ∉ queued).eraseDups := by
  induction mentions generalizing queued with
  | nil => simp
  | cons p rest ih =>
    rw [List.foldl_cons,ih]
    by_cases known : p ∈ queued
    · rw [enlist,if_pos known,List.filter_cons_of_neg (by simpa using known)]
    · rw [enlist,if_neg known,List.filter_cons_of_pos (by simpa using known),List.eraseDups_cons,List.filter_filter,
        List.append_assoc,List.singleton_append]
      congr 3
      refine List.filter_congr fun q _ => ?_
      by_cases same : q = p <;> simp [same]

end Mentions

/-! ### The line of peers -/

/-- The peers that were heard of. -/
def told (w : Watched A P) : List P := w.heard.map PeerHint.peer_id

/-- What stopped the crawl. -/
structure Halted (maxDials : Nat) (w : Watched A P) : Prop where
  drained : w.stopped = some .frontier_drained → w.crawl.frontier = [] ∧ w.dropped = none
  capped : w.stopped = some .max_dials → maxDials ≤ w.crawl.dials_attempted ∧ w.dropped.isSome = true
  timed : w.stopped = some .wall_cap → w.dropped.isSome = true

section Line
variable [DecidableEq P]

/-- What is queued are the peers that the seeds name and those that were heard of. -/
structure Listed (lib : Libraries A P) (maxDials : Nat) (seeds : List A) (w : Watched A P) : Prop where
  lined : Lined lib maxDials seeds w
  queued : w.crawl.queued = (told w).foldl enlist (seedIds lib seeds)
  halted : Halted maxDials w

variable {lib : Libraries A P} {maxDials : Nat} {seeds : List A} {w next : Watched A P}

omit [DecidableEq P] in
/-- A crawl that goes on has not been stopped by anything. -/
theorem halted_going (going : w.stopped = none) : Halted maxDials w := by
  constructor <;>
  · intro stops
    rw [going] at stops
    cases stops

theorem halted_stop {reason : Stop} (lined : Lined lib maxDials seeds w) (taken : step lib maxDials w (.stop reason) = some next) :
    Halted maxDials next := by
  have going := lined.going (step_stop taken).1
  simp only [step] at taken
  split at taken
  · cases taken
  · split at taken
    · next drained =>
      cases taken
      refine ⟨fun _ => ⟨drained,going⟩,?_,?_⟩ <;>
      · intro stops
        cases stops
    · cases taken
      refine ⟨?_,?_,fun _ => rfl⟩ <;>
      · intro stops
        cases stops
    · split at taken
      · next met =>
        cases taken
        refine ⟨?_,fun _ => ⟨met,rfl⟩,?_⟩ <;>
        · intro stops
          cases stops
      · cases taken
    · cases taken

/-- Only a hint that is heard changes the queue, and it enlists its peer. -/
theorem queued_crawl {act : CacheFile.Act} {s : Crawl A P} (moved : crawlStep lib maxDials w.crawl act = some s) :
    s.queued = ((takes w.crawl act).map PeerHint.peer_id).foldl enlist w.crawl.queued := by
  cases act with
  | gossip body => rw [crawl_gossip moved]; rfl
  | send task =>
    obtain ⟨hint,later,found,rfl⟩ := crawl_send moved
    rfl
  | dial outcome tick =>
    obtain ⟨room,hint,rest,front,frontier,count,queued,-⟩ := crawl_dial moved
    exact queued
  | hear tick =>
    obtain ⟨hint,rest,front,channel,cache,count,sinks,turn⟩ := crawl_hear moved
    have taken : takes w.crawl (.hear tick) = [hint] := by rw [takes,front]; rfl
    rw [taken,List.map_singleton,List.foldl_cons,List.foldl_nil,enlist]
    rcases turn with ⟨known,queued,-⟩ | ⟨new,queued,-⟩
    · rw [if_pos known,queued]
    · rw [if_neg new,queued]
  | close => rw [crawl_close moved]; rfl

theorem listed_step (w : Watched A P) (turn : Turn) (next : Watched A P) (listed : Listed lib maxDials seeds w)
    (taken : step lib maxDials w turn = some next) : Listed lib maxDials seeds next := by
  refine ⟨lined_step w turn next listed.lined taken,?_,?_⟩
  · cases turn with
    | crawl act =>
      obtain ⟨going,s,moved,rfl⟩ := step_crawl taken
      rw [show (Watched.crawl _).queued = s.queued from rfl,queued_crawl moved,listed.queued]
      simp only [told,List.map_append,List.foldl_append]
    | stop reason =>
      obtain ⟨going,stopped,attempts,heard,frontier,crawl,popped⟩ := step_stop taken
      rw [crawl,told,heard]
      exact listed.queued
  · cases turn with
    | crawl act =>
      obtain ⟨going,s,moved,rfl⟩ := step_crawl taken
      exact halted_going going
    | stop reason => exact halted_stop listed.lined taken

theorem listed_start : Listed lib maxDials seeds (start lib seeds) := by
  refine ⟨lined_start maxDials seeds,?_,halted_going rfl⟩
  rw [← seedHints_ids]
  simp [start,startCrawl,seedHints,told,Function.comp_def]

/-- Every peer that was named, in the order of the first mention: the seeds, as often as
    they were given, and the others once. -/
def mentioned (lib : Libraries A P) (seeds : List A) (w : Watched A P) : List P :=
  seedIds lib seeds ++ ((told w).filter fun p => p ∉ seedIds lib seeds).eraseDups

/-- How much of the line a crawl has dialed, and why it went no further. -/
structure InLine (lib : Libraries A P) (maxDials : Nat) (seeds : List A) (w : Watched A P) : Prop where
  line : w.line.map PeerHint.peer_id = mentioned lib seeds w
  drained : w.stopped = some .frontier_drained → w.attempts.map PeerHint.peer_id = mentioned lib seeds w
  capped : w.stopped = some .max_dials → w.attempts.map PeerHint.peer_id = (mentioned lib seeds w).take maxDials ∧
    maxDials < (mentioned lib seeds w).length
  timed : w.stopped = some .wall_cap → ∃ hint, w.dropped = some hint ∧
    (mentioned lib seeds w)[w.attempts.length]? = some hint.peer_id

theorem listed_line (listed : Listed lib maxDials seeds w) : w.line.map PeerHint.peer_id = mentioned lib seeds w := by
  obtain ⟨added,line,queued,-⟩ := listed.lined.line
  rw [line,List.map_append,seedHints_ids,← queued,listed.queued,foldl_enlist,mentioned]

/-- Peers are dialed in the order in which they were first named, each but the seeds at
    most once. A crawl whose frontier drained has dialed every peer that was named, one
    that met its cap exactly as many as the cap allows, with at least one left; and what
    a cap stops is the next in line. -/
theorem crawl_in_line (lib : Libraries A P) (maxDials : Nat) (seeds : List A) (turns : List Turn) (w : Watched A P)
    (reached : run (step lib maxDials) (start lib seeds) turns = some w) : InLine lib maxDials seeds w := by
  have listed : Listed lib maxDials seeds w := run_invariant listed_step listed_start reached
  have line := listed_line listed
  have ids : mentioned lib seeds w =
      w.attempts.map PeerHint.peer_id ++ w.dropped.toList.map PeerHint.peer_id ++ w.crawl.frontier.map PeerHint.peer_id := by
    rw [← line,Watched.line,List.map_append,List.map_append]
  refine ⟨line,fun drained => ?_,fun capped => ?_,fun timed => ?_⟩
  · obtain ⟨empty,none_⟩ := listed.halted.drained drained
    rw [ids,empty,none_]
    simp
  · obtain ⟨met,popped⟩ := listed.halted.capped capped
    obtain ⟨hint,dropped⟩ := Option.isSome_iff_exists.mp popped
    have full : (w.attempts.map PeerHint.peer_id).length = maxDials := by
      rw [List.length_map,listed.lined.count]
      exact Nat.le_antisymm listed.lined.cap met
    rw [ids,dropped]
    constructor
    · rw [List.append_assoc,← full,List.take_left]
    · simp only [List.length_append,full,Option.toList_some,List.map_singleton,List.length_singleton]
      omega
  · obtain ⟨hint,dropped⟩ := Option.isSome_iff_exists.mp (listed.halted.timed timed)
    refine ⟨hint,dropped,?_⟩
    rw [ids,dropped,List.append_assoc,List.getElem?_append_right (by rw [List.length_map])]
    simp

end Line

/-- One seed, its gossip, and a cap that the seed already meets. -/
def cappedRun : List Turn := namedRun.map Turn.crawl ++ [.stop .max_dials]

theorem crawl_in_line_capped : ∃ w : Watched (List Char) Nat,
    run (step sampleLibraries 1) (start sampleLibraries [seedAddr]) cappedRun = some w ∧
    mentioned sampleLibraries [seedAddr] w = [6,5] ∧ InLine sampleLibraries 1 [seedAddr] w := by
  refine ⟨_,rfl,by decide +kernel,?_⟩
  exact crawl_in_line sampleLibraries 1 [seedAddr] cappedRun _ rfl

/-! ### What was heard and whose hand was shaken -/

/-- What a crawl learns of a node. -/
inductive Sighting (A P : Type)
  /-- The candidate was dialed, and the handshake gave its overlay. -/
  | shaken (hint : PeerHint A P) (overlay : SwarmAddress) (rtt : Half) (tick : Word)
  /-- A hint was received. -/
  | heard (hint : PeerHint A P) (tick : Word)

namespace Sighting
variable (lib : Libraries A P)

def overlay : Sighting A P → SwarmAddress
  | .shaken _ overlay _ _ => overlay
  | .heard hint _ => hint.overlay

/-- The candidate whose hand was shaken. -/
def candidate : Sighting A P → Option (PeerHint A P)
  | .shaken hint _ _ _ => some hint
  | .heard _ _ => none

def gossip : Sighting A P → Option (PeerHint A P)
  | .shaken _ _ _ _ => none
  | .heard hint _ => some hint

/-- The record that is upserted. -/
def record : Sighting A P → NodeRecord
  | .shaken hint overlay rtt tick => hintRecord lib overlay hint (some rtt) tick true
  | .heard hint tick => hintRecord lib hint.overlay hint none tick false

theorem record_overlay (sighting : Sighting A P) : (sighting.record lib).overlay = sighting.overlay := by
  cases sighting <;> rfl

theorem record_dialed (sighting : Sighting A P) : (sighting.record lib).dialed_ok = sighting.candidate.isSome := by
  cases sighting <;> rfl

end Sighting

/-- What an action of the crawl learns. -/
def sights (s : Crawl A P) : CacheFile.Act → List (Sighting A P)
  | .dial (some (overlay,rtt)) tick =>
    (s.frontier.head?.toList.filter fun hint => !hint.underlays.isEmpty).map fun hint => .shaken hint overlay rtt tick
  | .hear tick => s.channel.head?.toList.map fun hint => .heard hint tick
  | _ => []

def Turn.sights (w : Watched A P) : Turn → List (Sighting A P)
  | .crawl act => Survey.sights w.crawl act
  | .stop _ => []

/-- The counters of `CrawlStats` beyond the dials, and all that was learned. -/
structure Stats (A P : Type) where
  dials_ok : Nat
  hints_seen : Nat
  sightings : List (Sighting A P)

def Stats.count (stats : Stats A P) (sighting : Sighting A P) : Stats A P :=
  match sighting with
  | .shaken _ _ _ _ => { stats with dials_ok := stats.dials_ok + 1, sightings := stats.sightings ++ [sighting] }
  | .heard _ _ => { stats with hints_seen := stats.hints_seen + 1, sightings := stats.sightings ++ [sighting] }

section Sums
variable [DecidableEq P] (lib : Libraries A P)

/-- The crawl with its statistics. -/
def survey (maxDials : Nat) : Watched A P × Stats A P → Turn → Option (Watched A P × Stats A P) :=
  noted (step lib maxDials) fun w turn _ stats => (Turn.sights w turn).foldl Stats.count stats

/-- The records of what was learned of an overlay. -/
def about (overlay : SwarmAddress) (sightings : List (Sighting A P)) : List NodeRecord :=
  (sightings.map (Sighting.record lib)).filter fun r => r.overlay = overlay

/-- What the cache and the statistics are when a crawl returns, or before. -/
structure Summed (w : Watched A P) (stats : Stats A P) : Prop where
  heard : stats.sightings.filterMap Sighting.gossip = w.heard
  shaken : (stats.sightings.filterMap Sighting.candidate).Sublist w.attempts
  hints_seen : stats.hints_seen = w.heard.length
  dials_ok : stats.dials_ok = (stats.sightings.filterMap Sighting.candidate).length
  within : stats.dials_ok ≤ w.crawl.dials_attempted
  known : ∀ overlay, (w.crawl.cache.nodes.lookup overlay).isSome = true ↔ ∃ sighting ∈ stats.sightings, sighting.overlay = overlay
  made : ∀ r ∈ w.crawl.cache.records, MadeOf (about lib r.overlay stats.sightings) r
  verified : (w.crawl.cache.records.filter NodeRecord.dialed_ok).length ≤ stats.dials_ok

/-! ### One turn -/

section Turns
variable {lib} {maxDials : Nat} {seeds : List A}

/-- A turn upserts the records of what it learns. -/
theorem crawl_sights {s next : Crawl A P} {act : CacheFile.Act} (moved : crawlStep lib maxDials s act = some next) :
    next.cache = ((sights s act).map (Sighting.record lib)).foldl TopologyCache.upsert s.cache := by
  cases act with
  | gossip body => rw [crawl_gossip moved]; rfl
  | send task =>
    obtain ⟨hint,later,found,rfl⟩ := crawl_send moved
    rfl
  | dial outcome tick =>
    simp only [crawlStep] at moved
    split at moved
    · cases moved
    · split at moved
      · cases moved
      · next hint rest front =>
        split at moved
        · next bare =>
          cases moved
          rcases outcome with _ | ⟨overlay,rtt⟩
          · rfl
          · simp [sights,front,bare]
        · next addr others named =>
          rcases outcome with _ | ⟨overlay,rtt⟩
          · cases moved
            rfl
          · cases moved
            simp [sights,front,named,Sighting.record]
  | hear tick =>
    obtain ⟨hint,rest,front,channel,cache,-⟩ := crawl_hear moved
    rw [cache,sights,front]
    rfl
  | close => rw [crawl_close moved]; rfl

omit [DecidableEq P] in
theorem sights_gossip (s : Crawl A P) (act : CacheFile.Act) : (sights s act).filterMap Sighting.gossip = takes s act := by
  rcases act with body | task | ⟨outcome,tick⟩ | tick | _
  · rfl
  · rfl
  · rcases outcome with _ | ⟨overlay,rtt⟩
    · rfl
    · simp [sights,takes,Sighting.gossip]
  · simp only [sights,takes]
    cases s.channel <;> rfl
  · rfl

omit [DecidableEq P] in
theorem sights_candidate (s : Crawl A P) (act : CacheFile.Act) :
    ((sights s act).filterMap Sighting.candidate).Sublist (Etiquette.dials s act) := by
  rcases act with body | task | ⟨outcome,tick⟩ | tick | _
  · exact List.Sublist.refl _
  · exact List.Sublist.refl _
  · rcases outcome with _ | ⟨overlay,rtt⟩
    · exact List.nil_sublist _
    · simp only [sights,Etiquette.dials,List.filterMap_map]
      rw [show Sighting.candidate ∘ (fun hint : PeerHint A P => .shaken hint overlay rtt tick) = some from rfl,
        List.filterMap_some]
      exact List.filter_sublist
  · simp [sights,Sighting.candidate,Etiquette.dials]
  · exact List.Sublist.refl _

omit [DecidableEq P] in
theorem count_sightings (stats : Stats A P) (more : List (Sighting A P)) :
    more.foldl Stats.count stats = ⟨stats.dials_ok + (more.filterMap Sighting.candidate).length,
      stats.hints_seen + (more.filterMap Sighting.gossip).length,stats.sightings ++ more⟩ := by
  induction more generalizing stats with
  | nil => simp
  | cons sighting rest ih =>
    rw [List.foldl_cons,ih]
    cases sighting <;> simp [Stats.count,List.filterMap_cons,Sighting.candidate,Sighting.gossip] <;> omega

/-- What is counted is what was learned, and the cache has its records. -/
structure Tallied (lib : Libraries A P) (maxDials : Nat) (seeds : List A) (w : Watched A P) (stats : Stats A P) : Prop where
  lined : Lined lib maxDials seeds w
  cache : w.crawl.cache = (stats.sightings.map (Sighting.record lib)).foldl TopologyCache.upsert .new
  heard : stats.sightings.filterMap Sighting.gossip = w.heard
  shaken : (stats.sightings.filterMap Sighting.candidate).Sublist w.attempts
  hints_seen : stats.hints_seen = (stats.sightings.filterMap Sighting.gossip).length
  dials_ok : stats.dials_ok = (stats.sightings.filterMap Sighting.candidate).length

theorem tallied_step (st : Watched A P × Stats A P) (turn : Turn) (next : Watched A P × Stats A P)
    (tallied : Tallied lib maxDials seeds st.1 st.2) (taken : survey lib maxDials st turn = some next) :
    Tallied lib maxDials seeds next.1 next.2 := by
  obtain ⟨moved,counts⟩ := noted_some.mp taken
  have lined := lined_step st.1 turn next.1 tallied.lined moved
  rw [counts,count_sightings]
  cases turn with
  | crawl act =>
    obtain ⟨going,s,crawled,same⟩ := step_crawl moved
    rw [same] at lined ⊢
    refine ⟨lined,?_,?_,?_,?_,?_⟩
    · rw [show (Watched.crawl _).cache = s.cache from rfl,crawl_sights crawled,tallied.cache,List.map_append,
        List.foldl_append]
      rfl
    · rw [List.filterMap_append,tallied.heard,Turn.sights,sights_gossip]
    · rw [List.filterMap_append]
      exact tallied.shaken.append (sights_candidate _ _)
    · rw [tallied.hints_seen,List.filterMap_append,List.length_append]
    · rw [tallied.dials_ok,List.filterMap_append,List.length_append]
  | stop reason =>
    obtain ⟨going,stopped,attempts,heard,frontier,crawl,popped⟩ := step_stop moved
    simp only [Turn.sights,List.filterMap_nil,List.length_nil,Nat.add_zero,List.append_nil]
    refine ⟨lined,?_,?_,?_,tallied.hints_seen,tallied.dials_ok⟩
    · rw [crawl]
      exact tallied.cache
    · rw [heard]
      exact tallied.heard
    · rw [attempts]
      exact tallied.shaken

omit [DecidableEq P] in
theorem tallied_start : Tallied lib maxDials seeds (start lib seeds) ⟨0,0,[]⟩ :=
  ⟨lined_start maxDials seeds,rfl,rfl,List.nil_sublist _,rfl,rfl⟩

end Turns

/-! ### The summary -/

section Summary
variable {lib} {maxDials : Nat} {seeds : List A} {w : Watched A P} {stats : Stats A P}

omit [DecidableEq P] in
theorem tallied_lookup (tallied : Tallied lib maxDials seeds w stats) (overlay : SwarmAddress) :
    w.crawl.cache.nodes.lookup overlay = merged (about lib overlay stats.sightings) := by
  rw [tallied.cache,lookup_upserts]
  rfl

omit [DecidableEq P] in
theorem mem_about {overlay : SwarmAddress} {sightings : List (Sighting A P)} {r : NodeRecord} :
    r ∈ about lib overlay sightings ↔ ∃ sighting ∈ sightings, sighting.record lib = r ∧ sighting.overlay = overlay := by
  unfold about
  rw [List.mem_filter,List.mem_map,decide_eq_true_eq]
  constructor
  · rintro ⟨⟨sighting,member,rfl⟩,own⟩
    exact ⟨sighting,member,rfl,(sighting.record_overlay lib).symm.trans own⟩
  · rintro ⟨sighting,member,rfl,own⟩
    exact ⟨⟨sighting,member,rfl⟩,(sighting.record_overlay lib).trans own⟩

omit [DecidableEq P] in
theorem tallied_known (tallied : Tallied lib maxDials seeds w stats) (overlay : SwarmAddress) :
    (w.crawl.cache.nodes.lookup overlay).isSome = true ↔ ∃ sighting ∈ stats.sightings, sighting.overlay = overlay := by
  rw [tallied_lookup tallied,merged_isSome]
  constructor
  · intro some_
    obtain ⟨r,known⟩ := List.exists_mem_of_ne_nil _ some_
    obtain ⟨sighting,member,-,own⟩ := mem_about.mp known
    exact ⟨sighting,member,own⟩
  · rintro ⟨sighting,member,own⟩
    exact List.ne_nil_of_mem (mem_about.mpr ⟨sighting,member,rfl,own⟩)

omit [DecidableEq P] in
theorem tallied_made (tallied : Tallied lib maxDials seeds w stats) {r : NodeRecord} (member : r ∈ w.crawl.cache.records) :
    MadeOf (about lib r.overlay stats.sightings) r := by
  have found := mem_records.mp member
  rw [tallied_lookup tallied] at found
  exact madeOf_merged found

omit [DecidableEq P] in
/-- A verified node has an overlay that a handshake gave, and every node another one. -/
theorem tallied_verified (tallied : Tallied lib maxDials seeds w stats) :
    (w.crawl.cache.records.filter NodeRecord.dialed_ok).length ≤ stats.dials_ok := by
  have distinct : ((w.crawl.cache.records.filter NodeRecord.dialed_ok).map NodeRecord.overlay).Nodup :=
    w.crawl.cache.nodup.sublist (List.filter_sublist.map _)
  have given : ((w.crawl.cache.records.filter NodeRecord.dialed_ok).map NodeRecord.overlay) ⊆
      ((stats.sightings.filter fun sighting => sighting.candidate.isSome).map Sighting.overlay) := by
    intro overlay member
    obtain ⟨r,kept,rfl⟩ := List.mem_map.mp member
    obtain ⟨member,dialed⟩ := List.mem_filter.mp kept
    rw [(tallied_made tallied member).dialed,List.any_eq_true] at dialed
    obtain ⟨r',known,dialed⟩ := dialed
    obtain ⟨sighting,learned,rfl,own⟩ := mem_about.mp known
    rw [sighting.record_dialed lib] at dialed
    exact List.mem_map.mpr ⟨sighting,List.mem_filter.mpr ⟨learned,dialed⟩,own⟩
  have fewer := (distinct.subperm given).length_le
  rw [List.length_map,List.length_map] at fewer
  rwa [tallied.dials_ok,List.length_filterMap_eq_countP,List.countP_eq_length_filter]

end Summary

/-- In every state of every crawl the cache is a summary of the hints that were received
    and of the handshakes: it has a node for each overlay of theirs and no other, a node
    is verified when a handshake gave its overlay, it has the RTT of the last such
    handshake, the latest tick, and all underlays that were named with it. The
    statistics count the hints and the handshakes, which are of dialed candidates, and
    there are no more verified nodes than handshakes. -/
theorem crawl_summed (maxDials : Nat) (seeds : List A) (turns : List Turn) (w : Watched A P) (stats : Stats A P)
    (reached : run (survey lib maxDials) (start lib seeds,⟨0,0,[]⟩) turns = some (w,stats)) : Summed lib w stats := by
  have tallied : Tallied lib maxDials seeds w stats := run_invariant tallied_step tallied_start reached
  refine ⟨tallied.heard,tallied.shaken,?_,tallied.dials_ok,?_,tallied_known tallied,fun r => tallied_made tallied,
    tallied_verified tallied⟩
  · rw [tallied.hints_seen,tallied.heard]
  · rw [tallied.dials_ok,← tallied.lined.count]
    exact tallied.shaken.length_le

end Sums

theorem crawl_summed_named : ∃ (w : Watched (List Char) Nat) (stats : Stats (List Char) Nat),
    run (survey sampleLibraries 10) (start sampleLibraries [seedAddr],⟨0,0,[]⟩) politeRun = some (w,stats) ∧
    stats.dials_ok = 1 ∧ stats.hints_seen = 1 ∧ Summed sampleLibraries w stats := by
  refine ⟨_,_,rfl,rfl,rfl,?_⟩
  exact crawl_summed sampleLibraries 10 [seedAddr] politeRun _ _ rfl

end Directswarm.Survey
