import Aesd.Library.LinkedList

/-!
# The list of threads

`main` keeps a node for each connection in a singly linked list. `ll_clean` walks the list,
and takes out and frees the nodes of threads that are done, or at the end all nodes. While it
walks, the threads go on: a flag may turn to 1 between any two visits.
-/

namespace Aesd

open LinkedList

/-- `thread_data_t`, as far as `main` uses it: the thread, the descriptor of its client, and
the flag that it sets when it is done. -/
structure ThreadData where
  threadId : Nat
  clientFd : Nat
  completeFlag : Bool
  deriving DecidableEq, Repr

/-- `pthread_join` of a thread, and `free` of the node at an address. -/
inductive CleanEvent where
  | join (threadId : Nat)
  | free (node : Nat)
  deriving DecidableEq, Repr

/-- The nodes, the head of the list and the two local pointers of `ll_clean`, with what has
been joined and freed so far. -/
structure Walk where
  heap : Heap ThreadData
  head : Option Nat
  previous : Option Nat
  current : Option Nat
  events : List CleanEvent

namespace Walk

/-- The call of `pthread_join` and `free` for a node that has been taken out. -/
def dispose (walk : Walk) (temp : Nat) : Option Walk :=
  match walk.heap temp with
  | none => none
  | some node => some { walk with
      heap := walk.heap.free temp
      events := walk.events ++ [.join node.data.threadId, .free temp] }

/-- One pass of the loop of `ll_clean`; `none` if it touches a node that is not allocated. -/
def visit (isClear : Bool) (walk : Walk) : Option Walk :=
  match walk.current with
  | none => some walk
  | some temp =>
      match walk.heap temp with
      | none => none
      | some node =>
          if node.data.completeFlag || isClear then
            if walk.current = walk.head then
              { walk with head := node.next, current := node.next }.dispose temp
            else
              match walk.previous with
              | none => none
              | some previous =>
                  match walk.heap previous with
                  | none => none
                  | some before =>
                      { walk with
                        current := node.next
                        heap := walk.heap.store previous ⟨before.data, node.next⟩
                      }.dispose temp
          else some { walk with previous := some temp, current := node.next }

/-- Threads set their flags. -/
def turn (turns : Nat → Bool) (walk : Walk) : Walk :=
  { walk with heap := fun node => (walk.heap node).map fun cell =>
      { cell with data.completeFlag := cell.data.completeFlag || turns node } }

end Walk

/-- The loop of `ll_clean`. Before the visit of a number the flags turn that are given for this
number. -/
def llCleanLoop (isClear : Bool) (turns : Nat → Nat → Bool) : Nat → Nat → Walk → Option Walk
  | 0, _, _ => none
  | fuel + 1, number, walk =>
      let walk := walk.turn (turns number)
      match walk.current with
      | none => some walk
      | some _ => (walk.visit isClear).bind (llCleanLoop isClear turns fuel (number + 1))

/-- `ll_clean`. -/
def llClean (fuel : Nat) (heap : Heap ThreadData) (head : Option Nat) (isClear : Bool)
    (turns : Nat → Nat → Bool) : Option Walk :=
  match head with
  | none => some ⟨heap, none, none, none, []⟩
  | some _ => llCleanLoop isClear turns fuel 0 ⟨heap, head, none, head, []⟩

/-! ## One visit -/

/-- The walk has kept some nodes and has others before it. -/
structure Walks (kept rest : List Nat) (walk : Walk) : Prop where
  list : IsList walk.heap.links walk.head (kept ++ rest)
  current : walk.current = rest.head?
  previous : walk.previous = kept.getLast?

namespace Walks

variable {kept rest : List Nat} {walk : Walk} {node : Nat}

/-- Before it visits anything. -/
theorem start {heap : Heap ThreadData} {head : Option Nat} {nodes : List Nat}
    (isList : IsList heap.links head nodes) (events : List CleanEvent) :
    Walks [] nodes ⟨heap, head, none, head, events⟩ :=
  ⟨isList, isList.head_eq, rfl⟩

/-- The next node is allocated and linked to the one after it. -/
theorem cell (walks : Walks kept (node :: rest) walk) {data : ThreadData}
    (contents : walk.heap.contents node = some data) :
    walk.heap node = some ⟨data, rest.head?⟩ := by
  obtain ⟨found, allocated⟩ := Heap.exists_cell walks.list.link
  obtain rfl : data = found :=
    Option.some.inj (contents.symm.trans (Heap.contents_of_cell allocated))
  exact allocated

/-- A node whose flag is not set stays. -/
theorem visit_keep (walks : Walks kept (node :: rest) walk) {data : ThreadData}
    (contents : walk.heap.contents node = some data) (running : data.completeFlag = false) :
    ∃ next, walk.visit false = some next ∧ Walks (kept ++ [node]) rest next ∧
      next.heap = walk.heap ∧ next.events = walk.events := by
  have allocated := walks.cell contents
  refine ⟨{ walk with previous := some node, current := rest.head? }, ?_, ⟨?_, rfl, ?_⟩,
    rfl, rfl⟩
  · simp [Walk.visit, walks.current, allocated, running]
  · rw [List.append_assoc]
    exact walks.list
  · rw [List.getLast?_concat]

/-- The first node goes: the head moves on. -/
theorem visit_first (walks : Walks [] (node :: rest) walk) {data : ThreadData}
    (contents : walk.heap.contents node = some data) {isClear : Bool}
    (removes : (data.completeFlag || isClear) = true) :
    ∃ next, walk.visit isClear = some next ∧ Walks [] rest next ∧
      next.heap.contents = Function.update walk.heap.contents node none ∧
      next.events = walk.events ++ [.join data.threadId, .free node] := by
  have allocated := walks.cell contents
  have here : walk.current = some node := walks.current
  have first : walk.head = some node := walks.list.head_eq
  have outside : node ∉ rest := walks.list.outside
  refine ⟨{ walk with
    head := rest.head?
    current := rest.head?
    heap := walk.heap.free node
    events := walk.events ++ [.join data.threadId, .free node] }, ?_, ⟨?_, rfl, ?_⟩,
    walk.heap.contents_free node, rfl⟩
  · simp only [Walk.visit, here, first, allocated, removes, if_true, Walk.dispose]
  · rw [Heap.links_free]
    exact walks.list.tail.update outside none
  · exact walks.previous

/-- A later node goes: the last node that has been kept is linked to the next one. -/
theorem visit_later {before : List Nat} {previous : Nat}
    (walks : Walks (before ++ [previous]) (node :: rest) walk) {data : ThreadData}
    (contents : walk.heap.contents node = some data) {isClear : Bool}
    (removes : (data.completeFlag || isClear) = true) :
    ∃ next, walk.visit isClear = some next ∧ Walks (before ++ [previous]) rest next ∧
      next.heap.contents = Function.update walk.heap.contents node none ∧
      next.events = walk.events ++ [.join data.threadId, .free node] := by
  have allocated := walks.cell contents
  have here : walk.current = some node := walks.current
  have behind : walk.previous = some previous := by
    rw [walks.previous, List.getLast?_concat]
  have outside : node ∉ before ++ [previous] ++ rest := walks.list.outside
  have apart : previous ≠ node := by
    rintro rfl
    simp at outside
  have notHead : some node ≠ walk.head := by
    rw [walks.list.head_eq]
    rintro same
    refine outside (List.mem_append_left rest (List.mem_of_mem_head? ?_))
    cases before <;> exact same.symm
  have linked : IsList walk.heap.links walk.head (before ++ previous :: node :: rest) := by
    simpa using walks.list
  obtain ⟨earlier, link⟩ := Heap.exists_cell linked.link
  refine ⟨{ walk with
    current := rest.head?
    heap := (walk.heap.store previous ⟨earlier, rest.head?⟩).free node
    events := walk.events ++ [.join data.threadId, .free node] }, ?_, ⟨?_, rfl, ?_⟩, ?_, rfl⟩
  · have same : walk.heap.store previous ⟨earlier, rest.head?⟩ node =
        some ⟨data, rest.head?⟩ := by rw [Heap.store_of_ne _ (Ne.symm apart), allocated]
    simp only [Walk.visit, here, allocated, removes, if_true, if_neg notHead, behind, link,
      Walk.dispose, same]
  · rw [Heap.links_free, Heap.links_store]
    exact walks.list.unlink.update outside none
  · exact walks.previous
  · rw [Heap.contents_free, Heap.contents_store_next _ link]

/-- A node whose flag is set goes, and so does every node at the end. -/
theorem visit_remove (walks : Walks kept (node :: rest) walk) {data : ThreadData}
    (contents : walk.heap.contents node = some data) {isClear : Bool}
    (removes : (data.completeFlag || isClear) = true) :
    ∃ next, walk.visit isClear = some next ∧ Walks kept rest next ∧
      next.heap.contents = Function.update walk.heap.contents node none ∧
      next.events = walk.events ++ [.join data.threadId, .free node] := by
  rcases List.eq_nil_or_concat kept with rfl | ⟨before, previous, rfl⟩
  · exact walks.visit_first contents removes
  · rw [List.concat_eq_append] at walks ⊢
    exact walks.visit_later contents removes

/-- Flags that turn leave the list alone. -/
theorem turn (walks : Walks kept rest walk) (turns : Nat → Bool) :
    Walks kept rest (walk.turn turns) where
  list := by
    have same : (walk.turn turns).heap.links = walk.heap.links := by
      funext address
      simp [Walk.turn, Heap.links, Function.comp_def]
    exact same ▸ walks.list
  current := walks.current
  previous := walks.previous

end Walks

/-! ## A whole walk -/

/-- The flag of the node. -/
def completeFlag (heap : Heap ThreadData) (node : Nat) : Bool :=
  (heap.contents node).any fun data => data.completeFlag

/-- The calls for a node that is taken out. -/
def joinAndFree (heap : Heap ThreadData) (node : Nat) : List CleanEvent :=
  match heap.contents node with
  | none => []
  | some data => [.join data.threadId, .free node]

/-- The flag at the visit of a number. -/
def flaggedAt (heap : Heap ThreadData) (turns : Nat → Nat → Bool) (number node : Nat) : Bool :=
  completeFlag heap node || (List.range (number + 1)).any fun earlier => turns earlier node

/-- Whether the visit of a number takes the node out. -/
def removesAt (heap : Heap ThreadData) (isClear : Bool) (turns : Nat → Nat → Bool)
    (number node : Nat) : Bool := isClear || flaggedAt heap turns number node

/-- The nodes whose visits are selected. The first node is visited at this number. -/
def visitsOf (selected : Nat → Nat → Bool) (number : Nat) (nodes : List Nat) : List Nat :=
  ((nodes.zipIdx number).filter fun visit => selected visit.2 visit.1).map Prod.fst

theorem visitsOf_cons (selected : Nat → Nat → Bool) (number node : Nat) (nodes : List Nat) :
    visitsOf selected number (node :: nodes) =
      if selected number node then node :: visitsOf selected (number + 1) nodes
      else visitsOf selected (number + 1) nodes := by
  unfold visitsOf
  rw [List.zipIdx_cons, List.filter_cons]
  split <;> rfl

theorem visitsOf_sublist (selected : Nat → Nat → Bool) (number : Nat) (nodes : List Nat) :
    (visitsOf selected number nodes).Sublist nodes := by
  have filtered : List.Sublist
      ((nodes.zipIdx number).filter fun visit => selected visit.2 visit.1)
      (nodes.zipIdx number) := List.filter_sublist
  have sublist := filtered.map Prod.fst
  rwa [List.zipIdx_map_fst] at sublist

/-- A node is selected or not at the number of its visit. -/
theorem mem_visitsOf_iff (selected : Nat → Nat → Bool) {nodes : List Nat}
    (distinct : nodes.Nodup) {index node : Nat} (visited : nodes[index]? = some node) :
    node ∈ visitsOf selected 0 nodes ↔ selected index node = true := by
  have inside := (List.getElem?_eq_some_iff.mp visited).1
  constructor
  · intro member
    obtain ⟨⟨found, number⟩, chosen, rfl⟩ := List.mem_map.mp member
    obtain ⟨isVisit, selects⟩ := List.mem_filter.mp chosen
    have again := List.mem_zipIdx_iff_getElem?.mp isVisit
    obtain rfl : index = number :=
      (List.getElem?_inj inside distinct).mp (visited.trans again.symm)
    exact selects
  · intro selects
    refine List.mem_map.mpr ⟨(node, index), List.mem_filter.mpr ⟨?_, selects⟩, rfl⟩
    exact List.mem_zipIdx_iff_getElem?.mpr visited

/-- A node that the walk has not visited holds its thread still, and the flag is as it was or
has turned since. -/
def Pending (heap : Heap ThreadData) (turns : Nat → Nat → Bool) (number : Nat) (walk : Walk)
    (node : Nat) : Prop :=
  ∃ data before, walk.heap.contents node = some data ∧ heap.contents node = some before ∧
    data.threadId = before.threadId ∧
    data.completeFlag =
      (before.completeFlag || (List.range number).any fun earlier => turns earlier node)

theorem turn_contents (walk : Walk) (turns : Nat → Bool) (node : Nat) :
    (walk.turn turns).heap.contents node = (walk.heap.contents node).map fun data =>
      { data with completeFlag := data.completeFlag || turns node } := by
  simp [Walk.turn, Heap.contents, Function.comp_def]

theorem Pending.turn {heap : Heap ThreadData} {turns : Nat → Nat → Bool} {number node : Nat}
    {walk : Walk} (pending : Pending heap turns number walk node) :
    Pending heap turns (number + 1) (walk.turn (turns number)) node := by
  obtain ⟨data, before, contents, earlier, thread, flag⟩ := pending
  refine ⟨{ data with completeFlag := data.completeFlag || turns number node }, before, ?_,
    earlier, thread, ?_⟩
  · rw [turn_contents, contents]
    rfl
  · simp [flag, List.range_succ, Bool.or_assoc]

theorem Pending.congr {heap : Heap ThreadData} {turns : Nat → Nat → Bool} {number node : Nat}
    {walk next : Walk} (pending : Pending heap turns number walk node)
    (same : next.heap.contents node = walk.heap.contents node) :
    Pending heap turns number next node := by
  obtain ⟨data, before, contents, rest⟩ := pending
  exact ⟨data, before, same.trans contents, rest⟩

theorem turn_contents_eq_none_iff (walk : Walk) (turns : Nat → Bool) (node : Nat) :
    (walk.turn turns).heap.contents node = none ↔ walk.heap.contents node = none := by
  rw [turn_contents, Option.map_eq_none_iff]

/-- What the loop does from some visit on. -/
theorem llCleanLoop_spec {heap : Heap ThreadData} (isClear : Bool) {turns : Nat → Nat → Bool}
    {fuel number : Nat} {kept rest : List Nat} {walk : Walk} (walks : Walks kept rest walk)
    (enough : rest.length < fuel)
    (pending : ∀ node ∈ rest, Pending heap turns number walk node) :
    ∃ result, llCleanLoop isClear turns fuel number walk = some result ∧
      IsList result.heap.links result.head (kept ++
        visitsOf (fun visit node => !removesAt heap isClear turns visit node) number rest) ∧
      result.events = walk.events ++
        (visitsOf (removesAt heap isClear turns) number rest).flatMap (joinAndFree heap) ∧
      ∀ node, result.heap.contents node = none ↔ walk.heap.contents node = none ∨
        node ∈ visitsOf (removesAt heap isClear turns) number rest := by
  induction rest generalizing fuel number kept walk with
  | nil =>
      obtain ⟨fuel, rfl⟩ : ∃ fewer, fuel = fewer + 1 := ⟨fuel - 1, by omega⟩
      have turned := walks.turn (turns number)
      refine ⟨walk.turn (turns number), ?_, turned.list, ?_, fun node => ?_⟩
      · simp only [llCleanLoop, turned.current, List.head?_nil]
      · simp [Walk.turn, visitsOf]
      · rw [turn_contents_eq_none_iff]
        simp [visitsOf]
  | cons node rest ih =>
      obtain ⟨fuel, rfl⟩ : ∃ fewer, fuel = fewer + 1 := ⟨fuel - 1, by omega⟩
      have turned := walks.turn (turns number)
      obtain ⟨data, before, contents, earlier, thread, flag⟩ :=
        (pending node List.mem_cons_self).turn
      have flagged : data.completeFlag = flaggedAt heap turns number node := by
        rw [flag, flaggedAt, completeFlag, earlier]
        rfl
      have outside : node ∉ rest := fun member =>
        walks.list.outside (List.mem_append_right kept member)
      have current : (walk.turn (turns number)).current = some node := turned.current
      cases removes : removesAt heap isClear turns number node with
      | true =>
          have goes : (data.completeFlag || isClear) = true := by
            rw [flagged, Bool.or_comm]
            exact removes
          obtain ⟨next, visited, after, nextContents, nextEvents⟩ :=
            turned.visit_remove contents goes
          have later : ∀ other ∈ rest, Pending heap turns (number + 1) next other :=
            fun other member => by
              have apart : other ≠ node := fun same => outside (same ▸ member)
              refine (pending other (List.mem_cons_of_mem _ member)).turn.congr ?_
              rw [nextContents, Function.update_of_ne apart]
          obtain ⟨result, returns, list, events, memory⟩ :=
            ih after (Nat.lt_of_succ_lt_succ enough) later
          refine ⟨result, ?_, ?_, ?_, fun other => ?_⟩
          · simp only [llCleanLoop, current, visited, Option.bind_some, returns]
          · rw [visitsOf_cons, removes]
            exact list
          · rw [visitsOf_cons, removes, if_pos rfl, List.flatMap_cons, events, nextEvents,
              joinAndFree, earlier, thread, List.append_assoc]
            rfl
          · rw [visitsOf_cons, removes, if_pos rfl, memory, nextContents, List.mem_cons]
            by_cases same : other = node
            · simp [same]
            · rw [Function.update_of_ne same, turn_contents_eq_none_iff]
              simp [same]
      | false =>
          obtain ⟨rfl, unflagged⟩ : isClear = false ∧ flaggedAt heap turns number node = false := by
            simpa [removesAt] using removes
          obtain ⟨next, visited, after, sameHeap, sameEvents⟩ :=
            turned.visit_keep contents (flagged.trans unflagged)
          have later : ∀ other ∈ rest, Pending heap turns (number + 1) next other :=
            fun other member =>
              (pending other (List.mem_cons_of_mem _ member)).turn.congr (by rw [sameHeap])
          obtain ⟨result, returns, list, events, memory⟩ :=
            ih after (Nat.lt_of_succ_lt_succ enough) later
          refine ⟨result, ?_, ?_, ?_, fun other => ?_⟩
          · simp only [llCleanLoop, current, visited, Option.bind_some, returns]
          · rw [visitsOf_cons, removes]
            simpa using list
          · rw [visitsOf_cons, removes, events, sameEvents]
            rfl
          · rw [visitsOf_cons, removes, memory, sameHeap, turn_contents_eq_none_iff]
            rfl

/-- What `ll_clean` does to a list of nodes: which of them stay, and in which order; which of
them go, and that they are joined and freed once each, and nothing else is freed. -/
structure CleansList (heap : Heap ThreadData) (nodes : List Nat) (isClear : Bool)
    (turns : Nat → Nat → Bool) (result : Walk) (kept removed : List Nat) : Prop where
  list : IsList result.heap.links result.head kept
  order : kept.Sublist nodes
  parted : ∀ node, node ∈ removed ↔ node ∈ nodes ∧ node ∉ kept
  flagged : ∀ node ∈ nodes, completeFlag heap node = true → node ∈ removed
  visited : ∀ (number node : Nat), nodes[number]? = some node → node ∈ removed →
    isClear = true ∨ flaggedAt heap turns number node = true
  cleared : isClear = true → kept = []
  once : removed.Nodup
  events : result.events = removed.flatMap (joinAndFree heap)
  memory : ∀ node, result.heap node = none ↔ heap node = none ∨ node ∈ removed

/-- The nodes that go and those that stay are told apart by what happens at their visits. -/
theorem cleansList_of_visits {heap : Heap ThreadData} {nodes : List Nat} (distinct : nodes.Nodup)
    {isClear : Bool} {turns : Nat → Nat → Bool} {result : Walk}
    (list : IsList result.heap.links result.head
      (visitsOf (fun visit node => !removesAt heap isClear turns visit node) 0 nodes))
    (events : result.events =
      (visitsOf (removesAt heap isClear turns) 0 nodes).flatMap (joinAndFree heap))
    (memory : ∀ node, result.heap.contents node = none ↔ heap.contents node = none ∨
      node ∈ visitsOf (removesAt heap isClear turns) 0 nodes) :
    CleansList heap nodes isClear turns result
      (visitsOf (fun visit node => !removesAt heap isClear turns visit node) 0 nodes)
      (visitsOf (removesAt heap isClear turns) 0 nodes) where
  list := list
  order := visitsOf_sublist ..
  parted node := by
    constructor
    · intro removed
      have member := (visitsOf_sublist ..).subset removed
      obtain ⟨number, visited⟩ := List.mem_iff_getElem?.mp member
      rw [mem_visitsOf_iff _ distinct visited] at removed
      refine ⟨member, fun kept => ?_⟩
      rw [mem_visitsOf_iff _ distinct visited, removed] at kept
      cases kept
    · rintro ⟨member, gone⟩
      obtain ⟨number, visited⟩ := List.mem_iff_getElem?.mp member
      rw [mem_visitsOf_iff _ distinct visited] at gone ⊢
      simpa using gone
  flagged node member flag := by
    obtain ⟨number, visited⟩ := List.mem_iff_getElem?.mp member
    rw [mem_visitsOf_iff _ distinct visited]
    simp [removesAt, flaggedAt, flag]
  visited number node visited removed := by
    rw [mem_visitsOf_iff _ distinct visited] at removed
    simpa [removesAt] using removed
  cleared isClear := by
    refine List.eq_nil_iff_forall_not_mem.mpr fun node kept => ?_
    obtain ⟨number, visited⟩ := List.mem_iff_getElem?.mp ((visitsOf_sublist ..).subset kept)
    rw [mem_visitsOf_iff _ distinct visited] at kept
    simp [removesAt, isClear] at kept
  once := distinct.sublist (visitsOf_sublist ..)
  events := events
  memory node := by
    rw [← Heap.contents_eq_none_iff, ← Heap.contents_eq_none_iff]
    exact memory node

/-- `ll_clean` returns, without a touch of a freed node, and does what it should. -/
theorem llClean_cleansList {heap : Heap ThreadData} {head : Option Nat} {nodes : List Nat}
    (isList : IsList heap.links head nodes) (isClear : Bool) (turns : Nat → Nat → Bool)
    {fuel : Nat} (enough : nodes.length < fuel) :
    ∃ result kept removed, llClean fuel heap head isClear turns = some result ∧
      CleansList heap nodes isClear turns result kept removed := by
  cases nodes with
  | nil =>
      obtain rfl : head = none := isList
      refine ⟨⟨heap, none, none, none, []⟩, _, _, rfl,
        cleansList_of_visits List.nodup_nil ?_ ?_ fun node => ?_⟩
      · rfl
      · rfl
      · simp [visitsOf]
  | cons first rest =>
      have pending : ∀ node ∈ first :: rest,
          Pending heap turns 0 ⟨heap, head, none, head, []⟩ node := fun node member => by
        obtain ⟨data, contents⟩ := isList.exists_contents member
        exact ⟨data, data, contents, contents, rfl, by simp⟩
      obtain ⟨result, returns, list, events, memory⟩ :=
        llCleanLoop_spec isClear (.start isList []) enough pending
      refine ⟨result, _, _, ?_, cleansList_of_visits isList.nodup list events memory⟩
      rw [isList.1, llClean, ← isList.1, returns]

end Aesd
