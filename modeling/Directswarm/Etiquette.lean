import Directswarm.Hive

/-!
Whom a crawl dials (`ds-net/src/crawl.rs`). Never more than its cap, and whatever is
taken from the channel is recorded and has its turn. That no peer is dialed twice
and that the address dialed is one of the peer that is meant are promised as well,
but the seeds enter the frontier without the check that gossip has to pass, and the
first underlay is dialed where any underlay may have named the peer. So each of the
two holds exactly in the crawls whose dialed seeds are distinct and whose dialed
hints name their peer in the first underlay (`crawl_etiquette`).
-/
namespace Directswarm.Etiquette
open Directswarm.Text Directswarm.PeerTable Directswarm.Proximity Directswarm.Routing Directswarm.Runs
open Directswarm.CacheFile Directswarm.Hive

variable {A P : Type}

/-! ### Crawls that are watched -/

/-- `stop_reason`. -/
inductive Stop
  | wall_cap
  | max_dials
  | frontier_drained
  deriving DecidableEq

inductive Turn
  | crawl (act : CacheFile.Act)
  /-- The loop ends; under a cap, the candidate that was popped goes with it. -/
  | stop (reason : Stop)

/-- A crawl, with what it dialed and heard so far. -/
structure Watched (A P : Type) where
  crawl : Crawl A P
  attempts : List (PeerHint A P)
  heard : List (PeerHint A P)
  dropped : Option (PeerHint A P)
  stopped : Option Stop

/-- The candidate that an action dials. -/
def dials (s : Crawl A P) : CacheFile.Act → List (PeerHint A P)
  | .dial _ _ => s.frontier.head?.toList
  | _ => []

/-- The hint that an action takes from the channel. -/
def takes (s : Crawl A P) : CacheFile.Act → List (PeerHint A P)
  | .hear _ => s.channel.head?.toList
  | _ => []

variable (lib : Libraries A P)

def start (seeds : List A) : Watched A P := ⟨startCrawl lib seeds,[],[],none,none⟩

variable [DecidableEq P]

def step (maxDials : Nat) (w : Watched A P) : Turn → Option (Watched A P)
  | .crawl act =>
    if w.stopped.isSome then none else
    (crawlStep lib maxDials w.crawl act).map fun next =>
      { w with crawl := next, attempts := w.attempts ++ dials w.crawl act, heard := w.heard ++ takes w.crawl act }
  | .stop reason =>
    if w.stopped.isSome ∨ w.crawl.harvesting then none else
    match reason,w.crawl.frontier with
    | .frontier_drained,[] => some { w with stopped := some reason }
    | .wall_cap,hint :: rest =>
      some { w with crawl := { w.crawl with frontier := rest }, dropped := some hint, stopped := some reason }
    | .max_dials,hint :: rest =>
      if maxDials ≤ w.crawl.dials_attempted then
        some { w with crawl := { w.crawl with frontier := rest }, dropped := some hint, stopped := some reason }
      else none
    | _,_ => none

/-! ### What the crawl promises -/

/-- The peers that the seeds name. -/
def seedIds (seeds : List A) : List P := seeds.filterMap lib.peerOf

/-- The address that is dialed for a hint carries the peer id of the hint. -/
def Carried (hint : PeerHint A P) : Prop := ∃ addr, hint.underlays.head? = some addr ∧ lib.peerOf addr = some hint.peer_id

/-- The cache has the node of a hint, with its underlays. -/
def Recorded (cache : TopologyCache) (hint : PeerHint A P) : Prop :=
  ∃ r ∈ cache.records, r.overlay = hint.overlay ∧ ∀ addr ∈ hint.underlays, lib.toText addr ∈ r.underlays

/-- The peer of a hint was dialed, waits in the frontier, or was popped when a cap was met. -/
def Placed (w : Watched A P) (hint : PeerHint A P) : Prop :=
  hint.peer_id ∈ (w.attempts ++ w.dropped.toList ++ w.crawl.frontier).map PeerHint.peer_id

structure Polite (maxDials : Nat) (w : Watched A P) : Prop where
  cap : w.attempts.length ≤ maxDials
  once : (w.attempts.map PeerHint.peer_id).Nodup
  carried : ∀ hint ∈ w.attempts, Carried lib hint
  heard : ∀ hint ∈ w.heard, Recorded lib w.crawl.cache hint ∧ Placed w hint

/-- Before a dial, the candidate names a peer in its first underlay. -/
def NamedFirst (w : Watched A P) : Turn → Prop
  | .crawl (.dial _ _) => ∀ hint ∈ w.crawl.frontier.head?, (hint.underlays.head?.bind lib.peerOf).isSome
  | _ => True

/-- How many candidates are dialed in a run. -/
def dialCount : List Turn → Nat
  | [] => 0
  | .crawl (.dial _ _) :: rest => dialCount rest + 1
  | _ :: rest => dialCount rest

/-! ### What the cache has -/

omit [DecidableEq P] in
theorem recorded_upsert (cache : TopologyCache) (hint : PeerHint A P) (tick : Word) :
    Recorded lib (cache.upsert (hintRecord lib hint.overlay hint none tick false)) hint := by
  let record := hintRecord lib hint.overlay hint none tick false
  have texts : ∀ addr ∈ hint.underlays, lib.toText addr ∈ record.underlays := fun _ member => List.mem_map_of_mem member
  have under := nodes_upsert cache record
  cases known : cache.nodes.lookup record.overlay with
  | none =>
    rw [known] at under
    refine ⟨record,mem_records.mpr ?_,rfl,texts⟩
    rw [under]
    exact AList.lookup_insert _
  | some existing =>
    have own : existing.overlay = record.overlay := cache.keyed _ (AList.mem_lookup_iff.mp known)
    rw [known] at under
    refine ⟨existing.refresh record,mem_records.mpr ?_,own,fun addr member => mem_refresh.mpr (.inr (texts addr member))⟩
    rw [under,show (existing.refresh record).overlay = record.overlay from own]
    exact AList.lookup_insert _

variable {lib}

omit [DecidableEq P] in
/-- What is recorded stays recorded. -/
theorem Recorded.upsert {cache : TopologyCache} {hint : PeerHint A P} (there : Recorded lib cache hint)
    (record : NodeRecord) : Recorded lib (cache.upsert record) hint := by
  obtain ⟨r,member,overlay,texts⟩ := there
  have found := mem_records.mp member
  have under := nodes_upsert cache record
  by_cases same : r.overlay = record.overlay
  · rw [← same,found] at under
    have own : (r.refresh record).overlay = r.overlay := rfl
    refine ⟨r.refresh record,mem_records.mpr ?_,overlay,fun addr inside => mem_refresh.mpr (.inl (texts addr inside))⟩
    rw [under,own]
    exact AList.lookup_insert _
  · refine ⟨r,mem_records.mpr ?_,overlay,texts⟩
    rw [under,AList.lookup_insert_ne same]
    exact found

/-! ### What a step does -/

theorem crawl_gossip {maxDials : Nat} {s next : Crawl A P} {body : List Byte}
    (taken : crawlStep lib maxDials s (.gossip body) = some next) :
    next = { s with sinks := s.sinks ++ [decodePeers lib body] } := by
  simp only [crawlStep] at taken
  split at taken
  · cases taken
  · exact (Option.some.inj taken).symm

theorem crawl_send {maxDials : Nat} {s next : Crawl A P} {task : Nat}
    (taken : crawlStep lib maxDials s (.send task) = some next) :
    ∃ hint later, s.sinks[task]? = some (hint :: later) ∧
      next = { s with sinks := s.sinks.set task later, channel := s.channel ++ [hint] } := by
  simp only [crawlStep] at taken
  split at taken
  · rename_i hint later found
    split at taken
    · exact ⟨hint,later,found,(Option.some.inj taken).symm⟩
    · cases taken
  · cases taken

/-- A dial takes the first candidate, and may record it. -/
theorem crawl_dial {maxDials : Nat} {s next : Crawl A P} {outcome : Option (SwarmAddress × Half)} {tick : Word}
    (taken : crawlStep lib maxDials s (.dial outcome tick) = some next) :
    s.dials_attempted < maxDials ∧ ∃ hint rest, s.frontier = hint :: rest ∧
      next.frontier = rest ∧ next.dials_attempted = s.dials_attempted + 1 ∧ next.queued = s.queued ∧
      next.sinks = s.sinks ∧ next.channel = s.channel ∧
      (next.cache = s.cache ∨ ∃ record, next.cache = s.cache.upsert record) := by
  simp only [crawlStep] at taken
  split at taken
  · cases taken
  · rename_i free
    rw [not_or,not_le] at free
    refine ⟨free.2,?_⟩
    split at taken
    · cases taken
    · rename_i hint rest front
      refine ⟨hint,rest,front,?_⟩
      split at taken
      · cases taken
        exact ⟨rfl,rfl,rfl,rfl,rfl,.inl rfl⟩
      · cases outcome with
        | none => cases taken; exact ⟨rfl,rfl,rfl,rfl,rfl,.inl rfl⟩
        | some dialed => cases taken; exact ⟨rfl,rfl,rfl,rfl,rfl,.inr ⟨_,rfl⟩⟩

/-- What is heard is recorded, and joins the frontier when its peer is new. -/
theorem crawl_hear {maxDials : Nat} {s next : Crawl A P} {tick : Word}
    (taken : crawlStep lib maxDials s (.hear tick) = some next) :
    ∃ hint rest, s.channel = hint :: rest ∧ next.channel = rest ∧
      next.cache = s.cache.upsert (hintRecord lib hint.overlay hint none tick false) ∧
      next.dials_attempted = s.dials_attempted ∧ next.sinks = s.sinks ∧
      (hint.peer_id ∈ s.queued ∧ next.queued = s.queued ∧ next.frontier = s.frontier ∨
        hint.peer_id ∉ s.queued ∧ next.queued = s.queued ++ [hint.peer_id] ∧ next.frontier = s.frontier ++ [hint]) := by
  simp only [crawlStep] at taken
  split at taken
  · split at taken
    · cases taken
    · rename_i hint rest front
      refine ⟨hint,rest,front,?_⟩
      split at taken
      · rename_i known
        cases taken
        exact ⟨rfl,rfl,rfl,rfl,.inl ⟨known,rfl,rfl⟩⟩
      · rename_i new
        cases taken
        exact ⟨rfl,rfl,rfl,rfl,.inr ⟨new,rfl,rfl⟩⟩
  · cases taken

theorem crawl_close {maxDials : Nat} {s next : Crawl A P} (taken : crawlStep lib maxDials s .close = some next) :
    next = { s with harvesting := false } := by
  simp only [crawlStep] at taken
  split at taken
  · exact (Option.some.inj taken).symm
  · cases taken

/-- Where the loop ends, a candidate may be popped. -/
theorem step_stop {maxDials : Nat} {w next : Watched A P} {reason : Stop}
    (taken : step lib maxDials w (.stop reason) = some next) :
    w.stopped = none ∧ next.stopped = some reason ∧ next.attempts = w.attempts ∧ next.heard = w.heard ∧
      ∃ frontier, next.crawl = { w.crawl with frontier := frontier } ∧
        (w.crawl.frontier = frontier ∧ next.dropped = w.dropped ∨
          ∃ hint, w.crawl.frontier = hint :: frontier ∧ next.dropped = some hint) := by
  simp only [step] at taken
  split at taken
  · cases taken
  · rename_i going
    rw [not_or,Bool.not_eq_true,Option.isSome_eq_false_iff,Option.isNone_iff_eq_none] at going
    refine ⟨going.1,?_⟩
    split at taken
    · rename_i none_
      cases taken
      exact ⟨rfl,rfl,rfl,_,rfl,.inl ⟨rfl,rfl⟩⟩
    · rename_i hint rest front
      cases taken
      exact ⟨rfl,rfl,rfl,rest,rfl,.inr ⟨hint,front,rfl⟩⟩
    · rename_i hint rest front
      split at taken
      · cases taken
        exact ⟨rfl,rfl,rfl,rest,rfl,.inr ⟨hint,front,rfl⟩⟩
      · cases taken
    · cases taken

theorem step_crawl {maxDials : Nat} {w next : Watched A P} {act : CacheFile.Act}
    (taken : step lib maxDials w (.crawl act) = some next) :
    w.stopped = none ∧ ∃ s, crawlStep lib maxDials w.crawl act = some s ∧ next =
      { w with crawl := s, attempts := w.attempts ++ dials w.crawl act, heard := w.heard ++ takes w.crawl act } := by
  simp only [step] at taken
  split at taken
  · cases taken
  · rename_i going
    rw [Bool.not_eq_true,Option.isSome_eq_false_iff,Option.isNone_iff_eq_none] at going
    obtain ⟨s,moved,rfl⟩ := Option.map_eq_some_iff.mp taken
    exact ⟨going,s,moved,rfl⟩

/-! ### The line of candidates -/

/-- The candidates of the seeds. -/
def seedHints (lib : Libraries A P) (seeds : List A) : List (PeerHint A P) := (startCrawl lib seeds).frontier

/-- The peer of a hint is the first one that its underlays name. -/
def Named (lib : Libraries A P) (hint : PeerHint A P) : Prop := hint.underlays.findSome? lib.peerOf = some hint.peer_id

/-- All candidates there were, dialed, popped or waiting. -/
def Watched.line (w : Watched A P) : List (PeerHint A P) := w.attempts ++ w.dropped.toList ++ w.crawl.frontier

/-- The candidates stand in line: first the seeds, then new peers as they were heard. -/
structure Lined (lib : Libraries A P) (maxDials : Nat) (seeds : List A) (w : Watched A P) : Prop where
  line : ∃ added : List (PeerHint A P), w.line = seedHints lib seeds ++ added ∧
    w.crawl.queued = seedIds lib seeds ++ added.map PeerHint.peer_id ∧
    (added.map PeerHint.peer_id).Nodup ∧ ∀ hint ∈ added, hint.peer_id ∉ seedIds lib seeds
  count : w.attempts.length = w.crawl.dials_attempted
  cap : w.crawl.dials_attempted ≤ maxDials
  going : w.stopped = none → w.dropped = none
  named : ∀ hint ∈ w.line, Named lib hint
  sinks : ∀ task ∈ w.crawl.sinks, ∀ hint ∈ task, Named lib hint
  channel : ∀ hint ∈ w.crawl.channel, Named lib hint
  heard : ∀ hint ∈ w.heard, Recorded lib w.crawl.cache hint ∧ hint.peer_id ∈ w.crawl.queued

omit [DecidableEq P] in
theorem seedHints_ids (seeds : List A) : (seedHints lib seeds).map PeerHint.peer_id = seedIds lib seeds := by
  induction seeds with
  | nil => rfl
  | cons seed rest ih =>
    cases named : lib.peerOf seed with
    | none => simpa [seedHints,seedIds,startCrawl,named] using ih
    | some p => simpa [seedHints,seedIds,startCrawl,named] using ih

omit [DecidableEq P] in
theorem seedHints_named {seeds : List A} {hint : PeerHint A P} (member : hint ∈ seedHints lib seeds) : Named lib hint := by
  obtain ⟨⟨seed,p⟩,known,rfl⟩ := List.mem_map.mp member
  obtain ⟨origin,-,named⟩ := List.mem_filterMap.mp known
  obtain ⟨q,names,same⟩ := Option.map_eq_some_iff.mp named
  cases same
  simp [Named,names]

omit [DecidableEq P] in
theorem decodePeers_named {body : List Byte} : ∀ hint ∈ decodePeers lib body, Named lib hint := by
  intro hint member
  unfold decodePeers at member
  split at member
  · cases member
  · obtain ⟨p,-,made⟩ := List.mem_filterMap.mp member
    exact (hintOf_iff.mp made).peer

omit [DecidableEq P] in
theorem lined_start (maxDials : Nat) (seeds : List A) : Lined lib maxDials seeds (start lib seeds) where
  line := by
    refine ⟨[],(List.append_nil _).symm,?_,List.nodup_nil,nofun⟩
    have queued : (startCrawl lib seeds).queued = (seedHints lib seeds).map PeerHint.peer_id := by
      simp [startCrawl,seedHints,Function.comp_def]
    rw [List.map_nil,List.append_nil,← seedHints_ids]
    exact queued
  count := rfl
  cap := Nat.zero_le _
  going := fun _ => rfl
  named := fun _ member => seedHints_named member
  sinks := nofun
  channel := nofun
  heard := nofun

omit [DecidableEq P] in
/-- Nothing is popped but where the loop ends. -/
theorem line_going {maxDials : Nat} {seeds : List A} {w : Watched A P} (inv : Lined lib maxDials seeds w)
    (going : w.stopped = none) : w.line = w.attempts ++ w.crawl.frontier := by
  rw [Watched.line,inv.going going]
  simp

theorem lined_crawl {maxDials : Nat} {seeds : List A} {w : Watched A P} {act : CacheFile.Act} {s : Crawl A P}
    (inv : Lined lib maxDials seeds w) (going : w.stopped = none) (moved : crawlStep lib maxDials w.crawl act = some s) :
    Lined lib maxDials seeds
      { w with crawl := s, attempts := w.attempts ++ dials w.crawl act, heard := w.heard ++ takes w.crawl act } := by
  have before := line_going inv going
  have after : ∀ attempts : List (PeerHint A P), (Watched.mk s attempts (w.heard ++ takes w.crawl act) w.dropped w.stopped).line =
      attempts ++ s.frontier := by
    intro attempts
    rw [Watched.line,inv.going going]
    simp
  cases act with
  | gossip body =>
    cases crawl_gossip moved
    have same : w.attempts ++ [] = w.attempts := List.append_nil _
    have none_ : w.heard ++ [] = w.heard := List.append_nil _
    simp only [dials,takes,same,none_]
    refine { inv with sinks := fun task member => ?_ }
    rcases List.mem_append.mp member with old | new
    · exact inv.sinks task old
    · rw [List.mem_singleton.mp new]
      exact decodePeers_named
  | send task =>
    obtain ⟨hint,later,found,rfl⟩ := crawl_send moved
    have all := inv.sinks _ (List.mem_of_getElem? found)
    have same : w.attempts ++ [] = w.attempts := List.append_nil _
    have none_ : w.heard ++ [] = w.heard := List.append_nil _
    simp only [dials,takes,same,none_]
    refine { inv with sinks := fun other member => ?_, channel := fun sent member => ?_ }
    · rcases List.mem_or_eq_of_mem_set member with old | rfl
      · exact inv.sinks other old
      · exact fun hint inside => all hint (List.mem_cons_of_mem _ inside)
    · rcases List.mem_append.mp member with old | new
      · exact inv.channel sent old
      · rw [List.mem_singleton.mp new]
        exact all hint List.mem_cons_self
  | dial outcome tick =>
    obtain ⟨room,hint,rest,front,frontier,count,queued,sinks,channel,cache⟩ := crawl_dial moved
    have dialed : dials w.crawl (.dial outcome tick) = [hint] := by rw [dials,front]; rfl
    have none_ : w.heard ++ [] = w.heard := List.append_nil _
    have line : w.attempts ++ [hint] ++ s.frontier = w.line := by
      rw [before,front,frontier,List.append_assoc,List.singleton_append]
    have kept : ∀ {heard : PeerHint A P}, Recorded lib w.crawl.cache heard → Recorded lib s.cache heard := by
      intro heard there
      rcases cache with same | ⟨record,same⟩ <;> rw [same]
      · exact there
      · exact there.upsert record
    simp only [takes,none_] at after ⊢
    rw [dialed]
    refine ⟨?_,?_,?_,inv.going,?_,?_,?_,?_⟩
    · rw [after,line]
      show ∃ added, _ ∧ s.queued = _ ∧ _
      rw [queued]
      exact inv.line
    · show (w.attempts ++ [hint]).length = s.dials_attempted
      rw [List.length_append,inv.count,count,List.length_singleton]
    · show s.dials_attempted ≤ maxDials
      omega
    · rw [after,line]
      exact inv.named
    · show ∀ task ∈ s.sinks, _
      rw [sinks]
      exact inv.sinks
    · show ∀ hint ∈ s.channel, _
      rw [channel]
      exact inv.channel
    · intro heard member
      obtain ⟨recorded,has⟩ := inv.heard heard member
      refine ⟨kept recorded,?_⟩
      show heard.peer_id ∈ s.queued
      rw [queued]
      exact has
  | hear tick =>
    obtain ⟨hint,rest,front,channel,cache,count,sinks,turn⟩ := crawl_hear moved
    have taken : takes w.crawl (.hear tick) = [hint] := by rw [takes,front]; rfl
    have same : w.attempts ++ [] = w.attempts := List.append_nil _
    have named : Named lib hint := inv.channel hint (by rw [front]; exact List.mem_cons_self)
    have has : hint.peer_id ∈ s.queued ∧ ∀ p ∈ w.crawl.queued, p ∈ s.queued := by
      rcases turn with ⟨known,queued,-⟩ | ⟨-,queued,-⟩ <;> rw [queued]
      · exact ⟨known,fun _ => id⟩
      · exact ⟨List.mem_append_right _ (List.mem_singleton_self _),fun p old => List.mem_append_left _ old⟩
    simp only [dials,same]
    rw [taken] at after ⊢
    refine ⟨?_,?_,?_,inv.going,?_,?_,?_,?_⟩
    · rw [after]
      obtain ⟨added,line,ids,fresh,apart⟩ := inv.line
      rw [before] at line
      rcases turn with ⟨-,queued,frontier⟩ | ⟨new,queued,frontier⟩
      · refine ⟨added,?_,?_,fresh,apart⟩
        · rw [frontier]
          exact line
        · show s.queued = _
          rw [queued]
          exact ids
      · rw [ids,List.mem_append,not_or] at new
        refine ⟨added ++ [hint],?_,?_,?_,?_⟩
        · rw [frontier,← List.append_assoc,line,List.append_assoc]
        · show s.queued = _
          rw [queued,ids,List.map_append,List.append_assoc]
          rfl
        · rw [List.map_append]
          exact List.nodup_append.mpr ⟨fresh,List.nodup_singleton _,fun p old q last => by
            rw [List.mem_singleton.mp last]
            exact fun equal => new.2 (equal ▸ old)⟩
        · intro other member
          rcases List.mem_append.mp member with old | last
          · exact apart other old
          · rw [List.mem_singleton.mp last]
            exact new.1
    · show w.attempts.length = s.dials_attempted
      rw [count]
      exact inv.count
    · show s.dials_attempted ≤ maxDials
      rw [count]
      exact inv.cap
    · rw [after]
      intro other member
      rcases turn with ⟨-,-,frontier⟩ | ⟨-,-,frontier⟩ <;> rw [frontier] at member
      · exact inv.named other (before ▸ member)
      · rw [← List.append_assoc] at member
        rcases List.mem_append.mp member with old | last
        · exact inv.named other (before ▸ old)
        · rw [List.mem_singleton.mp last]
          exact named
    · show ∀ task ∈ s.sinks, _
      rw [sinks]
      exact inv.sinks
    · show ∀ hint ∈ s.channel, _
      rw [channel]
      exact fun other member => inv.channel other (by rw [front]; exact List.mem_cons_of_mem _ member)
    · intro heard member
      show Recorded lib s.cache heard ∧ heard.peer_id ∈ s.queued
      rw [cache]
      rcases List.mem_append.mp member with old | last
      · obtain ⟨recorded,queued⟩ := inv.heard heard old
        exact ⟨recorded.upsert _,has.2 _ queued⟩
      · rw [List.mem_singleton.mp last]
        exact ⟨recorded_upsert lib _ hint tick,has.1⟩
  | close =>
    cases crawl_close moved
    have same : w.attempts ++ [] = w.attempts := List.append_nil _
    have none_ : w.heard ++ [] = w.heard := List.append_nil _
    simp only [dials,takes,same,none_]
    exact { inv with }

theorem lined_step {maxDials : Nat} {seeds : List A} (w : Watched A P) (turn : Turn) (next : Watched A P)
    (inv : Lined lib maxDials seeds w) (taken : step lib maxDials w turn = some next) : Lined lib maxDials seeds next := by
  cases turn with
  | crawl act =>
    obtain ⟨going,s,moved,rfl⟩ := step_crawl taken
    exact lined_crawl inv going moved
  | stop reason =>
    obtain ⟨going,stopped,attempts,heard,frontier,crawl,popped⟩ := step_stop taken
    have line : next.line = w.line := by
      rw [line_going inv going,Watched.line,attempts,crawl]
      rcases popped with ⟨front,dropped⟩ | ⟨hint,front,dropped⟩
      · rw [front,dropped,inv.going going]
        simp
      · rw [front,dropped]
        simp
    refine ⟨?_,?_,?_,?_,?_,?_,?_,?_⟩
    · rw [line,crawl]
      exact inv.line
    · rw [attempts,crawl]
      exact inv.count
    · rw [crawl]
      exact inv.cap
    · intro none_
      rw [stopped] at none_
      cases none_
    · rw [line]
      exact inv.named
    · rw [crawl]
      exact inv.sinks
    · rw [crawl]
      exact inv.channel
    · rw [heard,crawl]
      exact inv.heard

/-! ### Over a run -/

/-- The candidates that a turn dials. -/
def Turn.dials (w : Watched A P) : Turn → List (PeerHint A P)
  | .crawl act => Etiquette.dials w.crawl act
  | .stop _ => []

theorem step_attempts {maxDials : Nat} {w next : Watched A P} {turn : Turn} (taken : step lib maxDials w turn = some next) :
    next.attempts = w.attempts ++ turn.dials w := by
  cases turn with
  | crawl act =>
    obtain ⟨-,s,-,rfl⟩ := step_crawl taken
    rfl
  | stop reason =>
    obtain ⟨-,-,attempts,-⟩ := step_stop taken
    rw [attempts]
    exact (List.append_nil _).symm

theorem step_dialCount {maxDials : Nat} {w next : Watched A P} {turn : Turn} (taken : step lib maxDials w turn = some next)
    (rest : List Turn) : dialCount (turn :: rest) = (turn.dials w).length + dialCount rest := by
  cases turn with
  | stop reason => exact (Nat.zero_add _).symm
  | crawl act =>
    cases act with
    | dial outcome tick =>
      obtain ⟨-,s,moved,-⟩ := step_crawl taken
      obtain ⟨-,hint,others,front,-⟩ := crawl_dial moved
      show dialCount rest + 1 = w.crawl.frontier.head?.toList.length + _
      rw [front]
      exact Nat.add_comm _ _
    | gossip | send | hear | close => exact (Nat.zero_add _).symm

/-- As many attempts are made as there are dials. -/
theorem attempts_length {maxDials : Nat} {acts : List Turn} {w final : Watched A P}
    (reached : run (step lib maxDials) w acts = some final) : final.attempts.length = w.attempts.length + dialCount acts := by
  induction acts generalizing w with
  | nil => cases reached; rfl
  | cons turn rest ih =>
    obtain ⟨next,taken,onward⟩ := run_cons_some.mp reached
    rw [ih onward,step_attempts taken,List.length_append,step_dialCount taken,Nat.add_assoc]

/-- A candidate that names a peer in its first underlay names the one it is known by. -/
theorem namedFirst_iff {maxDials : Nat} {seeds : List A} {w next : Watched A P} {turn : Turn}
    (inv : Lined lib maxDials seeds w) (taken : step lib maxDials w turn = some next) :
    NamedFirst lib w turn ↔ ∀ hint ∈ turn.dials w, Carried lib hint := by
  cases turn with
  | stop reason => exact ⟨fun _ => nofun,fun _ => trivial⟩
  | crawl act =>
    cases act with
    | gossip | send | hear | close => exact ⟨fun _ => nofun,fun _ => trivial⟩
    | dial outcome tick =>
      obtain ⟨going,s,moved,-⟩ := step_crawl taken
      obtain ⟨-,hint,others,front,-⟩ := crawl_dial moved
      have named : Named lib hint := by
        refine inv.named hint ?_
        rw [line_going inv going,front]
        exact List.mem_append_right _ List.mem_cons_self
      have dialed : Turn.dials w (.crawl (.dial outcome tick)) = [hint] := by
        show w.crawl.frontier.head?.toList = _
        rw [front]
        rfl
      rw [dialed]
      simp only [NamedFirst,front,List.head?_cons,Option.mem_some_iff,forall_eq',List.mem_singleton,forall_eq]
      constructor
      · intro names
        obtain ⟨p,first_⟩ := Option.isSome_iff_exists.mp names
        obtain ⟨addr,first,peer⟩ := Option.bind_eq_some_iff.mp first_
        refine ⟨addr,first,?_⟩
        obtain ⟨rest,underlays⟩ := List.head?_eq_some_iff.mp first
        rw [Named,underlays,List.findSome?_cons,peer] at named
        rw [peer]
        exact named
      · rintro ⟨addr,first,peer⟩
        rw [first,Option.bind_some,peer]
        rfl

theorem carried_iff {maxDials : Nat} {seeds : List A} {acts : List Turn} {w final : Watched A P}
    (inv : Lined lib maxDials seeds w) (reached : run (step lib maxDials) w acts = some final) :
    (∀ hint ∈ final.attempts, Carried lib hint) ↔
      (∀ hint ∈ w.attempts, Carried lib hint) ∧ Meets (step lib maxDials) (NamedFirst lib) w acts := by
  induction acts generalizing w with
  | nil =>
    cases reached
    exact ⟨fun all => ⟨all,trivial⟩,And.left⟩
  | cons turn rest ih =>
    obtain ⟨next,taken,onward⟩ := run_cons_some.mp reached
    rw [ih (lined_step w turn next inv taken) onward,step_attempts taken]
    have here := namedFirst_iff inv taken
    constructor
    · rintro ⟨all,met⟩
      refine ⟨fun hint old => all hint (List.mem_append_left _ old),?_,fun other same => ?_⟩
      · exact here.mpr fun hint new => all hint (List.mem_append_right _ new)
      · cases taken.symm.trans same
        exact met
    · rintro ⟨old,first,met⟩
      refine ⟨fun hint member => ?_,met next taken⟩
      rcases List.mem_append.mp member with before | new
      · exact old hint before
      · exact here.mp first hint new

omit [DecidableEq P] in
/-- New peers are dialed once, so only seeds can be dialed again. -/
theorem once_iff {maxDials : Nat} {seeds : List A} {w : Watched A P} (inv : Lined lib maxDials seeds w) :
    (w.attempts.map PeerHint.peer_id).Nodup ↔ ((seedIds lib seeds).take w.attempts.length).Nodup := by
  obtain ⟨added,line,-,fresh,apart⟩ := inv.line
  have front : w.attempts = (seedHints lib seeds ++ added).take w.attempts.length := by
    rw [← line,Watched.line,List.append_assoc,List.take_left]
  have ids : w.attempts.map PeerHint.peer_id =
      (seedIds lib seeds ++ added.map PeerHint.peer_id).take w.attempts.length := by
    conv_lhs => rw [front]
    rw [List.map_take,List.map_append,seedHints_ids]
  rw [ids,List.take_append,List.nodup_append]
  constructor
  · exact And.left
  · intro seeds_
    refine ⟨seeds_,fresh.sublist (List.take_sublist _ _),?_⟩
    intro p seed q new same
    obtain ⟨hint,member,rfl⟩ := List.mem_map.mp (List.mem_of_mem_take new)
    exact apart hint member (same ▸ List.mem_of_mem_take seed)

omit [DecidableEq P] in
/-- The cap, and what becomes of the hints, do not depend on either. -/
theorem lined_always {maxDials : Nat} {seeds : List A} {w : Watched A P} (inv : Lined lib maxDials seeds w) :
    w.attempts.length ≤ maxDials ∧ ∀ hint ∈ w.heard, Recorded lib w.crawl.cache hint ∧ Placed w hint := by
  refine ⟨?_,fun hint member => ?_⟩
  · rw [inv.count]
    exact inv.cap
  · obtain ⟨recorded,queued⟩ := inv.heard hint member
    refine ⟨recorded,?_⟩
    obtain ⟨added,line,ids,-⟩ := inv.line
    show hint.peer_id ∈ w.line.map PeerHint.peer_id
    rw [line,List.map_append,seedHints_ids,← ids]
    exact queued

/-- A crawl is polite exactly where the seeds that it dials name different peers and
    every candidate that it dials names its peer in the first underlay. -/
theorem crawl_etiquette (lib : Libraries A P) (maxDials : Nat) (seeds : List A) (acts : List Turn) (w : Watched A P)
    (reached : run (step lib maxDials) (start lib seeds) acts = some w) :
    Polite lib maxDials w ↔ ((seedIds lib seeds).take (dialCount acts)).Nodup ∧
      Meets (step lib maxDials) (NamedFirst lib) (start lib seeds) acts := by
  have inv : Lined lib maxDials seeds w := run_invariant lined_step (lined_start maxDials seeds) reached
  have count : w.attempts.length = dialCount acts := (attempts_length reached).trans (Nat.zero_add _)
  have once := once_iff inv
  have carried := carried_iff (lined_start maxDials seeds) reached
  rw [count] at once
  constructor
  · intro polite
    exact ⟨once.mp polite.once,(carried.mp polite.carried).2⟩
  · rintro ⟨distinct,met⟩
    obtain ⟨cap,heard⟩ := lined_always inv
    exact ⟨cap,once.mpr distinct,carried.mpr ⟨nofun,met⟩,heard⟩

instance (lib : Libraries A P) (w : Watched A P) : (turn : Turn) → Decidable (NamedFirst lib w turn)
  | .crawl (.dial _ _) =>
    inferInstanceAs (Decidable (∀ hint ∈ w.crawl.frontier.head?, (hint.underlays.head?.bind lib.peerOf).isSome))
  | .crawl (.gossip _) | .crawl (.send _) | .crawl (.hear _) | .crawl .close | .stop _ => isTrue trivial

/-- One seed is dialed, and its gossip. -/
def politeRun : List Turn := namedRun.map Turn.crawl ++ [.crawl (.dial none 20),.stop .frontier_drained]

theorem crawl_etiquette_named : ∃ w : Watched (List Char) Nat,
    run (step sampleLibraries 10) (start sampleLibraries [seedAddr]) politeRun = some w ∧
    w.attempts.length = 2 ∧ w.heard.length = 1 ∧ Polite sampleLibraries 10 w := by
  refine ⟨_,rfl,rfl,rfl,?_⟩
  exact (crawl_etiquette sampleLibraries 10 [seedAddr] politeRun _ rfl).mpr (by decide +kernel)

/-- `/ip4/1.2.3.4/tcp/5`, in bytes. -/
def bareBytes : List Byte := [4,1,2,3,4,6,0,5]

def bareAddr : List Char := "/ip4/1.2.3.4/tcp/5".toList

/-- The underlays of a peer whose first one does not name it. -/
def bareUnderlay : List Byte := underlayListPrefix :: 8 :: bareBytes ++ 11 :: namedBytes

def bareBody : List Byte := [0x0a,58,0x0a,22] ++ bareUnderlay ++ [0x1a,32] ++ namedOverlay.toList

/-- What the libraries make of these addresses and of this message. -/
def bareLibraries : Libraries (List Char) Nat where
  tryFrom data := if data = namedBytes then some namedAddr else if data = bareBytes then some bareAddr else none
  toText addr := addr
  peerOf addr := if addr = seedAddr then some 6 else if addr = namedAddr then some 5 else none
  decodePb body := if body = bareBody then some [(bareUnderlay,namedOverlay.toList)] else none
  decodeU64 := Wire.decodeVarint

/-- The gossip is heard, and its peer is dialed at an address that names nobody. -/
def bareRun : List Turn := [.crawl (.gossip bareBody),.crawl (.dial (some (seedOverlay,40)) 7),.crawl (.send 0),
  .crawl (.hear 9),.crawl .close,.crawl (.dial none 20)]

/-- A seed that is given twice is dialed twice, and a hint is dialed at an address
    without its peer id. -/
theorem impolite :
    (∃ w : Watched (List Char) Nat, run (step sampleLibraries 10) (start sampleLibraries [seedAddr,seedAddr])
      [.crawl (.dial none 0),.crawl (.dial none 0)] = some w ∧ ¬Polite sampleLibraries 10 w) ∧
    ∃ w : Watched (List Char) Nat, run (step bareLibraries 10) (start bareLibraries [seedAddr]) bareRun = some w ∧
      ¬Polite bareLibraries 10 w := by
  constructor
  · refine ⟨_,rfl,fun polite => ?_⟩
    exact absurd polite.once (by decide +kernel)
  · refine ⟨_,rfl,fun polite => ?_⟩
    obtain ⟨addr,first,named⟩ := polite.carried _ (List.mem_append_right _ List.mem_cons_self)
    cases first
    exact absurd named (by decide +kernel)

end Directswarm.Etiquette
