import GameAP.Domain
import GameAP.Lib.ReadThrough
import GameAP.Lib.Runs
import GameAP.Repositories.Caching

/-!
# The cached repository of nodes

The cached repository keeps the result of `Find` by the API key or the API token of a daemon under
that credential alone, and every other result under all the arguments.  A write deletes the keys of
some credentials and all the other results.

`node_read_iff`: as long as a write deletes the keys of all credentials that the written node has,
before or after it, and that are cached, a read returns what the wrapped repository would return,
unless it is a lookup by a credential whose entry was filled with other arguments that have another
result.  A `Save` that replaces the API key does not meet the condition
(`superseded_key_still_found`).

The hash of the parameters is taken to be injective, and nodes that an order does not tell apart are
returned in the order of their ids.
-/

namespace GameAP

open ReadThrough Runs Tables List

/-! ### Nodes -/

structure FindNode where
  ids : List ℕ := []
  enabled : Option Bool := none
  os : Option NodeOS := none
  gdaemonAPIKey : Option String := none
  gdaemonAPIToken : Option String := none
  withDeleted : Bool := false
  deriving DecidableEq

/-- `getFilteredNodeIDs`, for one node. -/
def FindNode.accepts (f : FindNode) (n : Node) : Bool :=
  (f.ids.isEmpty || f.ids.contains n.id) && (f.withDeleted || n.deletedAt.isNone) &&
    (f.gdaemonAPIKey.all fun key => n.gdaemonAPIKey = key) &&
    (f.gdaemonAPIToken.all fun token => n.gdaemonAPIToken = some token) &&
    (f.enabled.all fun enabled => n.enabled = enabled) && f.os.all fun os => n.os = os

/-- Times that may be missing; a missing one is before the others. -/
def compareTimes : Option Time → Option Time → Ordering
  | none, none => .eq
  | none, some _ => .lt
  | some _, none => .gt
  | some s, some t => compare s t

/-- The order by a field. -/
def compareNodes (field : String) (a b : Node) : Ordering :=
  if field = "id" then compare a.id b.id
  else if field = "enabled" then compare a.enabled b.enabled
  else if field = "name" then compare a.name b.name
  else if field = "os" then compare a.os.text b.os.text
  else if field = "created_at" then compareTimes a.createdAt b.createdAt
  else if field = "updated_at" then compareTimes a.updatedAt b.updatedAt
  else .eq

inductive Credential
  | apiKey (key : String)
  | apiToken (token : String)
  deriving DecidableEq

def Node.has (n : Node) : Credential → Prop
  | .apiKey key => n.gdaemonAPIKey = key
  | .apiToken token => n.gdaemonAPIToken = some token

/-- The credentials of the node that are not empty. -/
def Node.credentials (n : Node) : List Credential :=
  (if n.gdaemonAPIKey ≠ "" then [.apiKey n.gdaemonAPIKey] else []) ++
    match n.gdaemonAPIToken with
    | some token => if token ≠ "" then [.apiToken token] else []
    | none => []

/-! ### The wrapped repository -/

inductive NodeQuery
  | all (order : List Sorting) (page : Option Pagination)
  | find (filter : Option FindNode) (order : List Sorting) (page : Option Pagination)
  deriving DecidableEq

namespace NodeQuery

variable (q : NodeQuery)

/-- The filter of a read. -/
def filter : FindNode :=
  match q with
  | .all _ _ => {}
  | .find filter _ _ => filter.getD {}

/-- The order of a read. -/
def order : List Sorting :=
  match q with
  | .all order _ | .find _ order _ => order

/-- The page of a read. -/
def page : Option Pagination :=
  match q with
  | .all _ page | .find _ _ page => page

/-- The credential by which is looked up. -/
def credential : Option Credential :=
  match q.filter.gdaemonAPIKey with
  | some key => some (.apiKey key)
  | none => q.filter.gdaemonAPIToken.map .apiToken

end NodeQuery

/-- The node in its place among nodes sorted by id, instead of one with its id. -/
def insertNode (node : Node) : List Node → List Node
  | [] => [node]
  | n :: ns =>
    if node.id < n.id then node :: n :: ns
    else if node.id = n.id then node :: ns
    else n :: insertNode node ns

variable {n : Node} {ns : List Node} (node : Node)

theorem mem_insertNode {node : Node} (h : n ∈ insertNode node ns) : n = node ∨ n ∈ ns := by
  induction ns with
  | nil => exact .inl (mem_singleton.1 h)
  | cons head ns ih =>
    simp only [insertNode] at h
    split_ifs at h
    · exact mem_cons.1 h
    · rcases mem_cons.1 h with h | h
      · exact .inl h
      · exact .inr (mem_cons_of_mem _ h)
    · rcases mem_cons.1 h with h | h
      · exact .inr (h ▸ mem_cons_self)
      · exact (ih h).imp_right (mem_cons_of_mem _)

theorem sorted_insertNode (h : ns.Pairwise fun a b => a.id < b.id) :
    (insertNode node ns).Pairwise fun a b => a.id < b.id := by
  induction ns with
  | nil => exact pairwise_singleton _ _
  | cons head ns ih =>
    obtain ⟨hhead, hns⟩ := pairwise_cons.1 h
    simp only [insertNode]
    split_ifs with hlt heq
    · refine pairwise_cons.2 ⟨fun n hn => ?_, h⟩
      rcases mem_cons.1 hn with rfl | hn
      · exact hlt
      · exact lt_trans hlt (hhead n hn)
    · refine pairwise_cons.2 ⟨fun n hn => ?_, hns⟩
      rw [heq]
      exact hhead n hn
    · refine pairwise_cons.2 ⟨fun n hn => ?_, ih hns⟩
      rcases mem_insertNode hn with rfl | hn
      · omega
      · exact hhead n hn

/-- `inmemory.NodeRepository`. -/
structure NodeRows where
  nodes : List Node
  nextID : ℕ
  sorted : nodes.Pairwise fun a b => a.id < b.id

/-- The writes with their arguments; `Save` reads the clock. -/
inductive NodeWrite
  | save (node : Node) (now : Time)
  | delete (id : ℕ)
  | updateGDaemonAPIToken (id : ℕ) (hashedToken : String) (updatedAt : Time)
  deriving DecidableEq

namespace NodeRows

variable (rows : NodeRows)

/-- `FindAll` and `Find`. -/
def eval (q : NodeQuery) : List Node :=
  applyPagination (sortRows compareNodes q.order (rows.nodes.filter q.filter.accepts)) q.page

/-- The node with the id, as the cached repository looks it up before a write. -/
def byID (id : ℕ) : Option Node := (rows.eval (.find (some { ids := [id] }) [] none)).head?

/-- The id that a node is saved with. -/
def savedID (node : Node) : ℕ := if node.id = 0 then rows.nextID + 1 else node.id

/-- The node as `Save` stores it. -/
def saved (node : Node) (now : Time) : Node :=
  { node with
    id := rows.savedID node
    updatedAt := some now
    createdAt :=
      if node.id = 0 ∧ (node.createdAt = none ∨ node.createdAt = some 0) then some now
      else node.createdAt }

/-- `Save`, `Delete` and `UpdateGDaemonAPIToken`. -/
def write : NodeWrite → NodeRows
  | .save node now =>
    { nodes := insertNode (rows.saved node now) rows.nodes
      nextID := if node.id = 0 then rows.nextID + 1 else rows.nextID
      sorted := sorted_insertNode _ rows.sorted }
  | .delete id =>
    { rows with
      nodes := rows.nodes.filter fun n => n.id ≠ id
      sorted := rows.sorted.sublist filter_sublist }
  | .updateGDaemonAPIToken id hashedToken updatedAt =>
    { rows with
      nodes := rows.nodes.map fun n =>
        if n.id = id then { n with gdaemonAPIToken := some hashedToken, updatedAt := some updatedAt }
        else n
      sorted := by
        refine pairwise_map.2 (rows.sorted.imp fun {a b} h => ?_)
        split_ifs <;> exact h }

/-- The id of the node that a write is about. -/
def target : NodeWrite → ℕ
  | .save node _ => rows.savedID node
  | .delete id => id
  | .updateGDaemonAPIToken id _ _ => id

/-- The credentials whose keys a write deletes. -/
def dropped : NodeWrite → List Credential
  | .save node _ => node.credentials
  | .delete id => (rows.byID id).elim [] Node.credentials
  | .updateGDaemonAPIToken id hashedToken _ =>
    (match (rows.byID id).bind Node.gdaemonAPIToken with
      | some old => if old ≠ "" ∧ old ≠ hashedToken then [.apiToken old] else []
      | none => []) ++ [.apiToken hashedToken]

/-- The read finds the node of the write, before or after it. -/
def touches (w : NodeWrite) (q : NodeQuery) : Bool :=
  (rows.nodes ++ (rows.write w).nodes).any fun n => n.id = rows.target w && q.filter.accepts n

end NodeRows

/-! ### The cached repository -/

/-- What is hashed. -/
inductive NodeParams
  | credential (text : String)
  | all (order : List Sorting) (page : Option Pagination)
  | find (filter : Option FindNode) (order : List Sorting) (page : Option Pagination)
  deriving DecidableEq

section Keys

variable {H : Type} (hash : NodeParams → H)

/-- The key of a credential. -/
def Credential.key : Credential → CacheKey H
  | .apiKey key => ⟨"node", "apikey", hash (.credential key)⟩
  | .apiToken token => ⟨"node", "apitoken", hash (.credential token)⟩

/-- The key of a read. -/
def NodeQuery.key : NodeQuery → CacheKey H
  | .all order page => ⟨"node", "findall", hash (.all order page)⟩
  | .find filter order page =>
    match (NodeQuery.find filter order page).credential with
    | some c => c.key hash
    | none => ⟨"node", "find", hash (.find filter order page)⟩

end Keys

/-- The rows and the cache. -/
structure CachedNodes (H : Type) where
  rows : NodeRows
  cache : Cache (CacheKey H) NodeQuery (List Node) := ∅

/-- A read or a write. -/
inductive NodeOp
  | read (q : NodeQuery)
  | write (w : NodeWrite)
  deriving DecidableEq

/-- The keys of the pattern `node:find*`. -/
def CacheKey.isNodeFind {H : Type} (k : CacheKey H) : Bool :=
  k.repository = "node" && "find".toList.isPrefixOf k.operation.toList

namespace CachedNodes

variable {H : Type} [DecidableEq H] (hash : NodeParams → H) (s : CachedNodes H)

/-- `FindAll` and `Find`: the result, and the cache afterwards. -/
def read (q : NodeQuery) : List Node × Cache (CacheKey H) NodeQuery (List Node) :=
  ReadThrough.read (fun q => some (q.key hash)) s.rows.eval s.cache q

def deletes (w : NodeWrite) (k : CacheKey H) : Bool :=
  ((s.rows.dropped w).any fun c => c.key hash = k) || k.isNodeFind

def step : NodeOp → Option (CachedNodes H)
  | .read q => some { s with cache := (s.read hash q).2 }
  | .write w =>
    some ⟨s.rows.write w, Table.delWhere s.cache (s.deletes hash w)⟩

/-- The condition on a write: a cached lookup by a credential that finds the node of the write,
before or after it, is one by a credential whose key the write deletes. -/
def Covered : NodeOp → Prop
  | .read _ => True
  | .write w => ∀ x ∈ s.cache.entries, ∀ c ∈ x.2.query.credential,
      s.rows.touches w x.2.query = true → c ∈ s.rows.dropped w

instance (op : NodeOp) : Decidable (s.Covered op) := by
  cases op <;> unfold Covered <;> infer_instance

end CachedNodes

/-! ### What a write changes -/

namespace NodeRows

variable {rows : NodeRows} {w : NodeWrite} {q : NodeQuery}

theorem filter_insertNode (ns : List Node) :
    (insertNode node ns).filter (fun n => n.id ≠ node.id) = ns.filter fun n => n.id ≠ node.id := by
  induction ns with
  | nil => simp [insertNode]
  | cons head ns ih =>
    simp only [insertNode]
    split_ifs with hlt heq
    · simp
    · simp [heq]
    · rw [filter_cons, ih, filter_cons]

theorem others_write (rows : NodeRows) (w : NodeWrite) :
    (rows.write w).nodes.filter (fun n => n.id ≠ rows.target w) =
      rows.nodes.filter fun n => n.id ≠ rows.target w := by
  cases w with
  | save node now => exact filter_insertNode (rows.saved node now) rows.nodes
  | delete id =>
    show (rows.nodes.filter fun n => n.id ≠ id).filter (fun n => n.id ≠ id) = _
    rw [filter_filter]
    exact filter_congr fun n _ => Bool.and_self _
  | updateGDaemonAPIToken id hashedToken updatedAt =>
    simp only [write, target]
    induction rows.nodes with
    | nil => rfl
    | cons head ns ih =>
      by_cases hid : head.id = id <;> simp_all

theorem filter_eq_filter_others {p : Node → Bool} {id : ℕ} (ns : List Node)
    (h : ∀ n ∈ ns, n.id = id → p n = false) :
    ns.filter p = (ns.filter fun n => n.id ≠ id).filter p := by
  rw [filter_filter]
  refine filter_congr fun n hn => ?_
  by_cases hid : n.id = id
  · simp [hid, h n hn hid]
  · simp [hid]

theorem not_accepts_of_not_touches (h : rows.touches w q = false)
    (hn : n ∈ rows.nodes ∨ n ∈ (rows.write w).nodes) (hid : n.id = rows.target w) :
    q.filter.accepts n = false := by
  have hany := any_eq_false.1 h n (mem_append.2 hn)
  simpa [hid] using hany

theorem eval_write (h : rows.touches w q = false) : (rows.write w).eval q = rows.eval q := by
  have hbef := filter_eq_filter_others rows.nodes fun n hn =>
    not_accepts_of_not_touches h (.inl hn)
  have hafter := filter_eq_filter_others (rows.write w).nodes fun n hn =>
    not_accepts_of_not_touches h (.inr hn)
  rw [eval, eval, hafter, others_write, ← hbef]

theorem mem_eval (h : n ∈ rows.eval q) : n ∈ rows.nodes ∧ q.filter.accepts n = true := by
  have hmem := mem_of_mem_applyPagination h
  unfold sortRows at hmem
  split_ifs at hmem
  exacts [mem_filter.1 hmem, mem_filter.1 (mem_mergeSort.1 hmem)]

end NodeRows

open NodeQuery

theorem FindNode.has_of_accepts {q : NodeQuery} {c : Credential}
    (hc : q.credential = some c) (h : q.filter.accepts n = true) : n.has c := by
  simp only [FindNode.accepts, Bool.and_eq_true] at h
  obtain ⟨⟨⟨⟨-, hkey⟩, htoken⟩, -⟩, -⟩ := h
  unfold credential at hc
  cases hk : q.filter.gdaemonAPIKey with
  | some key =>
    rw [hk] at hc hkey
    cases hc
    simpa [Node.has] using hkey
  | none =>
    rw [hk] at hc
    obtain ⟨token, ht, rfl⟩ := Option.map_eq_some_iff.1 hc
    rw [ht] at htoken
    simpa [Node.has] using htoken

/-! ### Keys and what they stand for -/

open Credential

section Keys

variable {H : Type} {hash : NodeParams → H} {q q' : NodeQuery} {c c' : Credential}

theorem Credential.key_injective (hinj : Function.Injective hash) :
    Function.Injective (key hash) := by
  intro c c' h
  cases c <;> cases c' <;> simp only [key, CacheKey.mk.injEq] at h
  case apiKey.apiKey => rw [NodeParams.credential.inj (hinj h.2.2)]
  case apiToken.apiToken => rw [NodeParams.credential.inj (hinj h.2.2)]
  all_goals simp at h

theorem NodeQuery.key_of_credential (h : q.credential = some c) : q.key hash = c.key hash := by
  cases q with
  | all order page => cases h
  | find filter order page => simp only [key, h]

theorem NodeQuery.key_of_none (hash : NodeParams → H) (h : q.credential = none) :
    (∃ order page, q = .all order page ∧ q.key hash = ⟨"node", "findall", hash (.all order page)⟩) ∨
    ∃ filter order page, q = .find filter order page ∧
      q.key hash = ⟨"node", "find", hash (.find filter order page)⟩ := by
  cases q with
  | all order page => exact .inl ⟨order, page, rfl, rfl⟩
  | find filter order page =>
    exact .inr ⟨filter, order, page, rfl, by simp only [key, h]⟩

theorem NodeQuery.isNodeFind_of_none (hash : NodeParams → H) (h : q.credential = none) :
    (q.key hash).isNodeFind = true := by
  rcases key_of_none hash h with ⟨order, page, -, hk⟩ | ⟨filter, order, page, -, hk⟩ <;>
    rw [hk] <;> simp [CacheKey.isNodeFind]

theorem Credential.not_isNodeFind (c : Credential) : (c.key hash).isNodeFind = false := by
  cases c <;> simp [key, CacheKey.isNodeFind, List.isPrefixOf]

theorem NodeQuery.eq_or_credential (hinj : Function.Injective hash) (h : q'.key hash = q.key hash) :
    q' = q ∨ ∃ c, q.credential = some c ∧ q'.credential = some c := by
  cases hc : q.credential with
  | some c =>
    cases hc' : q'.credential with
    | some c' =>
      rw [key_of_credential hc, key_of_credential hc'] at h
      rw [key_injective hinj h]
      exact .inr ⟨c, rfl, rfl⟩
    | none =>
      have hfind := isNodeFind_of_none hash hc'
      rw [h, key_of_credential hc, not_isNodeFind] at hfind
      cases hfind
  | none =>
    cases hc' : q'.credential with
    | some c' =>
      have hfind := isNodeFind_of_none hash hc
      rw [← h, key_of_credential hc', not_isNodeFind] at hfind
      cases hfind
    | none =>
      left
      rcases key_of_none hash hc with ⟨order, page, rfl, hk⟩ | ⟨filter, order, page, rfl, hk⟩ <;>
        rcases key_of_none hash hc' with
          ⟨order', page', rfl, hk'⟩ | ⟨filter', order', page', rfl, hk'⟩ <;>
        rw [hk, hk', CacheKey.mk.injEq] at h
      · obtain ⟨rfl, rfl⟩ := NodeParams.all.inj (hinj h.2.2)
        rfl
      · simp at h
      · simp at h
      · obtain ⟨rfl, rfl, rfl⟩ := NodeParams.find.inj (hinj h.2.2)
        rfl

end Keys

/-! ### What a read returns -/

namespace CachedNodes

variable {H : Type} [DecidableEq H] {hash : NodeParams → H} {s s' : CachedNodes H}

/-- The entries have what the wrapped repository returns. -/
def Coherent (hash : NodeParams → H) (s : CachedNodes H) : Prop :=
  Fresh (fun q => some (q.key hash)) s.rows.eval s.cache

theorem not_touches_of_kept (hs : Coherent hash s) {w : NodeWrite} (hw : s.Covered (.write w))
    {k : CacheKey H} {entry : Entry NodeQuery (List Node)} (hget : s.cache.get k = some entry)
    (hkept : s.deletes hash w k = false) : s.rows.touches w entry.query = false := by
  obtain ⟨hdrop, hfind⟩ := Bool.or_eq_false_iff.1 hkept
  have hkey : entry.query.key hash = k := Option.some.inj (hs k entry hget).1
  cases hc : entry.query.credential with
  | none =>
    rw [← hkey, isNodeFind_of_none hash hc] at hfind
    cases hfind
  | some c =>
    refine Bool.eq_false_iff.2 fun htouc => ?_
    have hmem := hw _ (Table.get_eq_some_iff.1 hget) c hc htouc
    refine any_eq_false.1 hdrop c hmem (decide_eq_true ?_)
    rw [← hkey, key_of_credential hc]

theorem Coherent.step (hs : Coherent hash s) {op : NodeOp} (hop : s.Covered op)
    (h : s.step hash op = some s') : Coherent hash s' := by
  cases op with
  | read q =>
    cases h
    exact Fresh.read hs q
  | write w =>
    cases h
    exact Fresh.delWhere hs _ fun k entry hget hkept =>
      NodeRows.eval_write (not_touches_of_kept hs hop hget hkept)

theorem Coherent.has_of_mem_read (hinj : Function.Injective hash) (hs : Coherent hash s)
    {q : NodeQuery} {c : Credential} (hc : q.credential = some c)
    (hn : n ∈ (s.read hash q).1) : n ∈ s.rows.nodes ∧ n.has c := by
  unfold CachedNodes.read ReadThrough.read at hn
  dsimp only at hn
  cases hget : s.cache.get (q.key hash) with
  | none =>
    rw [hget] at hn
    obtain ⟨hrow, hacc⟩ := NodeRows.mem_eval hn
    exact ⟨hrow, FindNode.has_of_accepts hc hacc⟩
  | some entry =>
    rw [hget] at hn
    obtain ⟨hkey, hvalue⟩ := hs _ entry hget
    dsimp only at hn
    rw [hvalue] at hn
    obtain ⟨hrow, hacc⟩ := NodeRows.mem_eval hn
    refine ⟨hrow, FindNode.has_of_accepts ?_ hacc⟩
    rcases eq_or_credential hinj (Option.some.inj hkey) with heq | ⟨c', hc', hentry⟩
    · rw [heq, hc]
    · rw [hentry, ← hc', hc]

/-- After calls whose writes meet the condition, a read is right exactly if it is not by a
credential, or its entry was filled with arguments that have the same result; and a lookup by a
credential returns only nodes that have it. -/
theorem node_read_iff (hinj : Function.Injective hash) (rows : NodeRows) (ops : List NodeOp)
    (hcovered : Along (step hash) Covered ({ rows } : CachedNodes H) ops)
    (hrun : run (step hash) ({ rows } : CachedNodes H) ops = some s) (q : NodeQuery) :
    ((s.read hash q).1 = s.rows.eval q ↔
      ∀ c entry, q.credential = some c → s.cache.get (c.key hash) = some entry →
        s.rows.eval entry.query = s.rows.eval q) ∧
    ∀ c, q.credential = some c → ∀ n ∈ (s.read hash q).1, n ∈ s.rows.nodes ∧ n.has c := by
  have h₀ : Coherent hash ({ rows } : CachedNodes H) := fresh_empty _ _
  have hs : Coherent hash s :=
    run_inv (Coherent hash) (fun t op t' ht hop h => ht.step hop h) h₀ hcovered hrun
  refine ⟨?_, fun c hc n hn => hs.has_of_mem_read hinj hc hn⟩
  rw [CachedNodes.read, Fresh.answer_iff hs]
  constructor
  · intro hsame c entry hc hget
    exact hsame (c.key hash) entry (congrArg some (NodeQuery.key_of_credential hc)) hget
  · intro hsame k entry hkey hget
    cases hkey
    rcases NodeQuery.eq_or_credential hinj (Option.some.inj (hs _ entry hget).1) with
      heq | ⟨c, hc, -⟩
    · rw [heq]
    · refine hsame c entry hc ?_
      rw [← NodeQuery.key_of_credential hc]
      exact hget

def sampleRows : NodeRows where
  nodes := [{ id := 1, gdaemonAPIKey := "key", gdaemonAPIToken := some "token" }]
  nextID := 1
  sorted := pairwise_singleton _ _

def sampleByToken : NodeQuery := .find (some { gdaemonAPIToken := some "token" }) [] none

def sampleByKey : NodeQuery := .find (some { gdaemonAPIKey := some "key" }) [] none

/-- The node is found by its token, and then the token is rotated. -/
def sampleRotation : List NodeOp :=
  [.read sampleByToken, .write (.updateGDaemonAPIToken 1 "next" 5)]

/-- The old token finds nothing any more. -/
theorem node_read_iff_rotated :
    ∃ s, run (step id) ({ rows := sampleRows } : CachedNodes NodeParams) sampleRotation = some s ∧
      (s.read id sampleByToken).1 = s.rows.eval sampleByToken ∧ s.rows.eval sampleByToken = [] := by
  refine ⟨_, rfl, (node_read_iff Function.injective_id sampleRows sampleRotation ?_ rfl
    sampleByToken).1.2 ?_, by decide⟩
  · decide
  · intro c entry hc hget
    cases hget

/-- The node is found by its key, and then saved with another one; the old key still finds it. -/
theorem superseded_key_still_found :
    ∃ s, run (step id) ({ rows := sampleRows } : CachedNodes NodeParams)
        [.read sampleByKey, .write (.save { id := 1, gdaemonAPIKey := "other" } 5)] = some s ∧
      (s.read id sampleByKey).1 = sampleRows.nodes ∧ s.rows.eval sampleByKey = [] := by
  exact ⟨_, rfl, by decide, by decide⟩

end CachedNodes

end GameAP
