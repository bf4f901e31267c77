import Packrat.Proofs.FailureMerge
import Packrat.Proofs.Script

/-!
# Moving results further on

`shift offset` moves a node, a failure, an outcome, an error or an event `offset` atoms further on:
all positions in it grow, and nothing else changes. Failures merge after the shift as before it
(`Failure.merge_shift`), and a rule's node is put around its body's in the same way
(`Context.ruleOutcome_shift`). Caches and sessions that hold the same further on are related by
`ShiftedBy`; this relation is kept by whatever an evaluation does to its session.
-/

set_option autoImplicit false

namespace Packrat

/-! ## Nodes -/

namespace Node

mutual

/-- The tree moved further on. -/
def shift (offset : Nat) : Node → Node
  | ⟨label, start, stop, children, alternative⟩ =>
    ⟨label, start + offset, stop + offset, shiftAll offset children, alternative⟩

def shiftAll (offset : Nat) : List Node → List Node
  | [] => []
  | node :: nodes => shift offset node :: shiftAll offset nodes

end

variable (offset : Nat)

theorem shiftAll_eq_map (nodes : List Node) : shiftAll offset nodes = nodes.map (shift offset) := by
  induction nodes with
  | nil => rfl
  | cons node nodes ih => rw [shiftAll, ih, List.map_cons]

theorem shift_mk (label : Label) (start stop : Nat) (children : List Node)
    (alternative : Option Nat) :
    shift offset ⟨label, start, stop, children, alternative⟩ =
      ⟨label, start + offset, stop + offset, children.map (shift offset), alternative⟩ := by
  rw [shift, shiftAll_eq_map]

@[simp] theorem label_shift (node : Node) : (node.shift offset).label = node.label := by
  cases node
  rw [shift]

@[simp] theorem children_shift (node : Node) :
    (node.shift offset).children = node.children.map (shift offset) := by
  cases node
  rw [shift_mk]

theorem map_shift_push (node? : Option Node) (children : List Node) :
    (node?.toList ++ children).map (shift offset) =
      (node?.map (shift offset)).toList ++ children.map (shift offset) := by
  cases node? <;> simp

end Node

/-! ## Failures -/

namespace Failure

/-- The failure moved further on. -/
def shift (offset : Nat) (failure : Failure) : Failure :=
  ⟨failure.position + offset, failure.expected⟩

variable (offset : Nat)

theorem merge_shift (f g : Failure) :
    (f.merge g).shift offset = (f.shift offset).merge (g.shift offset) := by
  rcases Nat.lt_trichotomy f.position g.position with h | h | h
  · rw [merge_of_lt h, merge_of_lt (by simp only [shift]; omega)]
  · rw [merge_of_eq h, merge_of_eq (by simp only [shift]; omega)]
    rfl
  · rw [merge_of_gt h, merge_of_gt (by simp only [shift]; omega)]

theorem map_shift_mergeOption (f? g? : Option Failure) :
    (mergeOption f? g?).map (shift offset) =
      mergeOption (f?.map (shift offset)) (g?.map (shift offset)) := by
  cases f? <;> cases g? <;> simp [mergeOption, merge_shift]

end Failure

/-! ## Outcomes -/

namespace Outcome

/-- The outcome moved further on. -/
def shift (offset : Nat) : Outcome → Outcome
  | success stop node? => success (stop + offset) (node?.map (Node.shift offset))
  | failure f => failure (f.shift offset)

variable (offset : Nat)

@[simp] theorem isSuccess_shift (outcome : Outcome) :
    (outcome.shift offset).isSuccess = outcome.isSuccess := by
  cases outcome <;> rfl

theorem shift_terminal (start stop : Nat) :
    (terminal start stop).shift offset = terminal (start + offset) (stop + offset) := by
  simp [terminal, shift, Node.shift_mk]

theorem shift_gathered (label : Label) (start stop : Nat) (children : List Node) :
    (success stop (some ⟨label, start, stop, children.reverse, none⟩)).shift offset =
      success (stop + offset) (some ⟨label, start + offset, stop + offset,
        (children.map (Node.shift offset)).reverse, none⟩) := by
  simp [shift, Node.shift_mk]

end Outcome

theorem Context.ruleNode_shift (offset : Nat) (name : String) (start stop : Nat)
    (alternative : Option Nat) (body? : Option Node) :
    (ruleNode name start stop alternative body?).shift offset =
      ruleNode name (start + offset) (stop + offset) alternative
        (body?.map (Node.shift offset)) := by
  unfold ruleNode
  cases body? with
  | none => simp [Node.shift_mk]
  | some body => cases hl : body.label <;> simp [hl, Node.shift_mk]

theorem Context.ruleOutcome_shift (offset : Nat) (name : String) (start : Nat)
    (alternative : Option Nat) (outcome : Outcome) :
    (ruleOutcome name start alternative outcome).shift offset =
      ruleOutcome name (start + offset) alternative (outcome.shift offset) := by
  cases outcome with
  | success stop body? => simp [ruleOutcome, Outcome.shift, ruleNode_shift]
  | failure f => rfl

/-! ## Errors and events -/

def ParseError.shift (offset : Nat) : ParseError → ParseError
  | undefinedRule name => undefinedRule name
  | recursionLimit limit position => recursionLimit limit (position + offset)
  | inputTooLarge length limit => inputTooLarge length limit

def Event.shift (offset : Nat) : Event → Event
  | ruleEntered rule position => ruleEntered rule (position + offset)
  | cacheHit rule position => cacheHit rule (position + offset)
  | event => event

/-- The value or the error moved further on. -/
def shiftResult {α : Type} (f : α → α) (offset : Nat) : Except ParseError α → Except ParseError α
  | .ok value => .ok (f value)
  | .error error => .error (error.shift offset)

/-! ## Caches -/

def CacheKey.shift (offset : Nat) (key : CacheKey) : CacheKey := ⟨key.position + offset, key.rule⟩

theorem CacheKey.compare_shift (offset : Nat) (a b : CacheKey) :
    compare (a.shift offset) (b.shift offset) = compare a b := by
  have hpos : compare (a.position + offset) (b.position + offset) =
      compare a.position b.position := by
    simp [Nat.compare_eq_ite_lt]
  show compareLex (compareOn CacheKey.position) (compareOn CacheKey.rule) _ _ =
    compareLex (compareOn CacheKey.position) (compareOn CacheKey.rule) _ _
  simp only [compareLex, compareOn, CacheKey.shift, hpos]

def CacheEntry.shift (offset : Nat) (entry : CacheEntry) : CacheEntry :=
  ⟨entry.outcome.shift offset, entry.furthest?.map (Failure.shift offset)⟩

theorem Cache.mem_keys_iff {cache : Cache} {key : CacheKey} :
    key ∈ cache.entries.keys ↔ (cache.get? key.rule key.position).isSome = true := by
  rw [Std.TreeMap.mem_keys, Std.TreeMap.mem_iff_isSome_getElem?]
  rfl

/-- The second cache holds what the first one holds, further on, and nothing before. -/
structure Cache.ShiftedBy (offset : Nat) (cache moved : Cache) : Prop where
  found : ∀ rule pos,
    moved.get? rule (pos + offset) = (cache.get? rule pos).map (CacheEntry.shift offset)
  before : ∀ rule pos, pos < offset → moved.get? rule pos = none
  hits : moved.hits = cache.hits
  misses : moved.misses = cache.misses

namespace Cache.ShiftedBy

variable {offset : Nat} {cache moved : Cache}

theorem empty (offset : Nat) : ({} : Cache).ShiftedBy offset {} :=
  ⟨fun _ _ => by simp, fun _ _ _ => by simp, rfl, rfl⟩

theorem insert (h : cache.ShiftedBy offset moved) (rule : String) (pos : Nat)
    (entry : CacheEntry) :
    (cache.insert rule pos entry).ShiftedBy offset
      (moved.insert rule (pos + offset) (entry.shift offset)) := by
  refine ⟨fun other place => ?_, fun other place hlt => ?_, h.hits, h.misses⟩
  · rw [get?_insert, get?_insert, h.found]
    by_cases hkey : rule = other ∧ pos = place
    · rw [if_pos hkey, if_pos ⟨hkey.1, by omega⟩, Option.map_some]
    · rw [if_neg hkey, if_neg fun hkey' => hkey ⟨hkey'.1, by omega⟩]
  · rw [get?_insert, if_neg fun hkey => by omega, h.before other place hlt]

theorem keys (h : cache.ShiftedBy offset moved) :
    moved.entries.keys = cache.entries.keys.map (CacheKey.shift offset) := by
  have hmoved : moved.entries.keys.Pairwise fun a b => compare a b = .lt :=
    Std.TreeMap.ordered_keys
  have hcache : (cache.entries.keys.map (CacheKey.shift offset)).Pairwise
      fun a b => compare a b = .lt := by
    rw [List.pairwise_map]
    simp only [CacheKey.compare_shift]
    exact Std.TreeMap.ordered_keys
  refine SortedSet.eq_of_mem_iff hmoved hcache fun key => ?_
  rw [mem_keys_iff, List.mem_map]
  constructor
  · intro hkey
    by_cases hlt : key.position < offset
    · rw [h.before _ _ hlt] at hkey
      cases hkey
    · obtain ⟨place, hplace⟩ := Nat.exists_eq_add_of_le' (Nat.not_lt.1 hlt)
      rw [hplace, h.found, Option.isSome_map] at hkey
      exact ⟨⟨place, key.rule⟩, mem_keys_iff.2 hkey, by rw [CacheKey.shift, ← hplace]⟩
  · rintro ⟨own, hown, rfl⟩
    rw [CacheKey.shift, h.found, Option.isSome_map]
    exact mem_keys_iff.1 hown

theorem size (h : cache.ShiftedBy offset moved) : moved.size = cache.size := by
  rw [Cache.size, Cache.size, ← Std.TreeMap.length_keys, ← Std.TreeMap.length_keys, h.keys,
    List.length_map]

end Cache.ShiftedBy

/-! ## Sessions -/

/-- The second session is the first one further on. -/
structure Session.ShiftedBy (offset : Nat) (session moved : Session) : Prop where
  cache : session.cache.ShiftedBy offset moved.cache
  furthest : moved.furthest? = session.furthest?.map (Failure.shift offset)
  log : moved.log = session.log.map (Event.shift offset)

namespace Session.ShiftedBy

variable {offset : Nat} {session moved inner innerMoved : Session}

theorem report (h : session.ShiftedBy offset moved) (event : Event) :
    (session.report event).ShiftedBy offset (moved.report (event.shift offset)) :=
  ⟨h.cache, h.furthest, by simp only [Session.report, h.log, List.map_cons]⟩

theorem note (h : session.ShiftedBy offset moved) (failure? : Option Failure) :
    (session.note failure?).ShiftedBy offset
      (moved.note (failure?.map (Failure.shift offset))) :=
  ⟨h.cache, by simp only [Session.note, h.furthest, Failure.map_shift_mergeOption], h.log⟩

theorem withoutFurthest (h : session.ShiftedBy offset moved) :
    session.withoutFurthest.ShiftedBy offset moved.withoutFurthest :=
  ⟨h.cache, rfl, h.log⟩

theorem restore (h : inner.ShiftedBy offset innerMoved) (hs : session.ShiftedBy offset moved) :
    Session.ShiftedBy offset { inner with furthest? := session.furthest? }
      { innerMoved with furthest? := moved.furthest? } :=
  ⟨h.cache, hs.furthest, h.log⟩

theorem mergedInto (h : inner.ShiftedBy offset innerMoved) (hs : session.ShiftedBy offset moved) :
    (inner.mergedInto session.furthest?).ShiftedBy offset
      (innerMoved.mergedInto moved.furthest?) :=
  ⟨h.cache, by simp only [Session.mergedInto, h.furthest, hs.furthest,
    Failure.map_shift_mergeOption], h.log⟩

theorem keep (h : session.ShiftedBy offset moved) (rule : String) (pos : Nat)
    (entry : CacheEntry) :
    (session.keep rule pos entry).ShiftedBy offset
      (moved.keep rule (pos + offset) (entry.shift offset)) :=
  ⟨h.cache.insert rule pos entry, h.furthest, h.log⟩

theorem hit (h : session.ShiftedBy offset moved) :
    session.hit.ShiftedBy offset moved.hit :=
  ⟨⟨h.cache.found, h.cache.before, congrArg (· + 1) h.cache.hits, h.cache.misses⟩, h.furthest,
    h.log⟩

theorem missed (h : session.ShiftedBy offset moved) :
    session.missed.ShiftedBy offset moved.missed :=
  ⟨⟨h.cache.found, h.cache.before, h.cache.hits, congrArg (· + 1) h.cache.misses⟩, h.furthest,
    h.log⟩

end Session.ShiftedBy

end Packrat
