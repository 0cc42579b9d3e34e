import Aesd.Server.AcceptLoop

/-!
# Every thread is joined

The nodes on the list and the nodes that have been freed are, in every state of `main`, the
nodes of the threads that were started: each of them is still on the list, or has been joined
and freed once. The last `ll_clean` empties the list, as far as the threads return: it waits
for each of them in `pthread_join`.
-/

namespace Aesd

open LinkedList Parties

/-- The threads that were started, each with its node. -/
def MainState.created (state : MainState) : List (Nat × Nat) :=
  state.connections.mapIdx fun thread connection => (thread, connection.node)

/-- The thread and the node of some nodes. -/
def listed (heap : Heap ThreadData) (nodes : List Nat) : List (Nat × Nat) :=
  nodes.map fun node => (((heap.contents node).map ThreadData.threadId).getD 0, node)

/-- The calls for the nodes of some threads, node after node. -/
def disposals (done : List (Nat × Nat)) : List CleanEvent :=
  done.flatMap fun entry => [.join entry.1, .free entry.2]

/-- The list has kept and unvisited nodes; other nodes are done with. -/
structure Bookkept (state : MainState) (kept rest : List Nat) (done : List (Nat × Nat)) :
    Prop where
  list : IsList state.walk.heap.links state.walk.head (kept ++ rest)
  cleaning : ∀ leaving, state.pc = .cleaning leaving → state.walk.current = rest.head? ∧
    state.walk.previous = kept.getLast? ∧ (leaving.isSome = true → kept = [])
  emptied : ∀ retval, state.pc = .returned retval → kept ++ rest = []
  opened : state.connections ≠ [] → state.isFdCreated = true
  conserved : (listed state.walk.heap (kept ++ rest) ++ done).Perm state.created
  holds : ∀ node ∈ kept ++ rest, ∀ data, state.walk.heap.contents node = some data →
    ∃ connection, state.connections[data.threadId]? = some connection ∧
      connection.clientFd = data.clientFd
  events : state.walk.events = disposals done
  joined : ∀ entry ∈ done, ∀ connection, state.connections[entry.1]? = some connection →
    connection.stage = .returned
  sound : state.fault = false

theorem created_insertNode (state : MainState) (client : SockaddrIn) (clientFd address : Nat) :
    (state.insertNode client clientFd address).created =
      state.created ++ [(state.connections.length, address)] := by
  simp [MainState.created, MainState.insertNode, List.mapIdx_concat]

theorem lt_of_created {state : MainState} {entry : Nat × Nat} (member : entry ∈ state.created) :
    entry.1 < state.connections.length := by
  obtain ⟨thread, inside, rfl⟩ := List.mem_mapIdx.mp member
  exact inside

theorem listed_cons {heap : Heap ThreadData} {node : Nat} {data : ThreadData}
    (contents : heap.contents node = some data) (nodes : List Nat) :
    listed heap (node :: nodes) = (data.threadId, node) :: listed heap nodes := by
  rw [listed, List.map_cons, contents]
  rfl

/-- Other nodes do not matter. -/
theorem listed_congr {heap other : Heap ThreadData} {nodes : List Nat}
    (same : ∀ node ∈ nodes, other.contents node = heap.contents node) :
    listed other nodes = listed heap nodes :=
  List.map_congr_left fun node member => by rw [same node member]

theorem created_setStage (state : MainState) {thread : Nat} {connection : Connection}
    (selected : state.connections[thread]? = some connection) (stage : ConnectionStage) :
    (state.setStage thread connection stage).created = state.created := by
  obtain ⟨inside, rfl⟩ := List.getElem?_eq_some_iff.mp selected
  refine List.ext_getElem? fun index => ?_
  rw [MainState.created, MainState.setStage, List.mapIdx_set, List.getElem?_set,
    MainState.created]
  split
  next same =>
    subst same
    simp [inside]
  next => rfl

namespace Bookkept

variable {state : MainState} {kept rest : List Nat} {done : List (Nat × Nat)}

theorem init (sfd : Nat) (fd : Int) : Bookkept (mainInit sfd fd) [] [] [] where
  list := rfl
  cleaning leaving cleaning := by cases cleaning
  emptied _ _ := rfl
  opened nonempty := absurd rfl nonempty
  conserved := List.Perm.refl []
  holds node member := by simp at member
  events := rfl
  joined entry member := by simp at member
  sound := rfl

/-- What matters of a state. -/
theorem congr (bookkept : Bookkept state kept rest done) {other : MainState}
    (pc : other.pc = state.pc) (walk : other.walk = state.walk)
    (connections : other.connections = state.connections) (fault : other.fault = state.fault)
    (created : state.isFdCreated = true → other.isFdCreated = true) :
    Bookkept other kept rest done := by
  obtain ⟨list, cleaning, emptied, opened, conserved, holds, events, joined, sound⟩ := bookkept
  rw [MainState.created] at conserved
  refine ⟨?_, ?_, ?_, fun nonempty => created (opened (connections ▸ nonempty)), ?_, ?_, ?_, ?_,
    ?_⟩
  all_goals simp only [MainState.created, pc, walk, connections, fault]
  all_goals assumption

/-- `main` is not in `ll_clean` any more. -/
theorem elsewhere (bookkept : Bookkept state kept rest done) {other : MainState}
    (notCleaning : ∀ leaving, other.pc ≠ .cleaning leaving)
    (emptied : ∀ retval, other.pc = .returned retval → kept ++ rest = [])
    (walk : other.walk = state.walk) (connections : other.connections = state.connections)
    (fault : other.fault = state.fault) (created : other.isFdCreated = state.isFdCreated) :
    Bookkept other kept rest done where
  list := walk ▸ bookkept.list
  cleaning leaving cleaning := absurd cleaning (notCleaning leaving)
  emptied := emptied
  opened nonempty := created ▸ bookkept.opened (connections ▸ nonempty)
  conserved := by
    rw [walk, MainState.created, connections]
    exact bookkept.conserved
  holds := by
    rw [walk, connections]
    exact bookkept.holds
  events := walk ▸ bookkept.events
  joined := connections ▸ bookkept.joined
  sound := fault ▸ bookkept.sound

/-- `ll_clean` is called. -/
theorem startClean (bookkept : Bookkept state kept rest done) (leaving : Option Leaving) :
    Bookkept (state.startClean leaving) [] (kept ++ rest) done where
  list := bookkept.list
  cleaning _ _ := ⟨bookkept.list.head_eq, rfl, fun _ => rfl⟩
  emptied _ returned := by cases returned
  opened := bookkept.opened
  conserved := bookkept.conserved
  holds := bookkept.holds
  events := bookkept.events
  joined := bookkept.joined
  sound := bookkept.sound

/-- A thread that has not returned goes on. -/
theorem setStage (bookkept : Bookkept state kept rest done) {thread : Nat}
    {connection : Connection} (selected : state.connections[thread]? = some connection)
    (active : connection.stage ≠ .returned) (stage : ConnectionStage) :
    Bookkept (state.setStage thread connection stage) kept rest done where
  list := bookkept.list
  cleaning := bookkept.cleaning
  emptied := bookkept.emptied
  opened _ := bookkept.opened fun empty => by simp [empty] at selected
  conserved := created_setStage state selected stage ▸ bookkept.conserved
  holds node member data contents := by
    obtain ⟨found, owner, same⟩ := bookkept.holds node member data contents
    by_cases acts : data.threadId = thread
    · rw [acts] at owner ⊢
      obtain rfl := Option.some.inj (selected.symm.trans owner)
      exact ⟨_, List.getElem?_set_self (lt_of_selected selected), same⟩
    · exact ⟨found, by rw [MainState.setStage, List.getElem?_set_ne (Ne.symm acts), owner], same⟩
  events := bookkept.events
  joined entry member other found := by
    rcases selected_set found with ⟨acts, -⟩ | ⟨-, earlier⟩
    · exact absurd (bookkept.joined entry member connection (acts ▸ selected)) active
    · exact bookkept.joined entry member other earlier
  sound := bookkept.sound

/-- A thread that has not returned has its node on the list. -/
theorem exists_node (bookkept : Bookkept state kept rest done) {thread : Nat}
    {connection : Connection} (selected : state.connections[thread]? = some connection)
    (active : connection.stage ≠ .returned) :
    connection.node ∈ kept ++ rest ∧ ∃ data,
      state.walk.heap.contents connection.node = some data ∧ data.threadId = thread := by
  have started : (thread, connection.node) ∈ state.created := by
    refine List.mem_iff_getElem?.mpr ⟨thread, ?_⟩
    rw [MainState.created, List.getElem?_mapIdx, selected]
    rfl
  rcases List.mem_append.mp (bookkept.conserved.mem_iff.mpr started) with onList | isDone
  · obtain ⟨node, member, entry⟩ := List.mem_map.mp onList
    obtain ⟨owner, rfl⟩ := Prod.mk.inj entry
    obtain ⟨data, contents⟩ := bookkept.list.exists_contents member
    exact ⟨member, data, contents, by simpa [contents] using owner⟩
  · exact absurd (bookkept.joined _ isDone connection selected) active

/-- A thread writes to its node. -/
theorem store (bookkept : Bookkept state kept rest done) {node : Nat} {cell : Cell ThreadData}
    (allocated : state.walk.heap node = some cell) (data : ThreadData)
    (thread : data.threadId = cell.data.threadId) (fd : data.clientFd = cell.data.clientFd) :
    Bookkept { state with walk.heap := state.walk.heap.store node ⟨data, cell.next⟩ }
      kept rest done := by
  have links := state.walk.heap.links_store_data allocated data
  have contents := state.walk.heap.contents_store node ⟨data, cell.next⟩
  have before := Heap.contents_of_cell allocated
  have same : listed (state.walk.heap.store node ⟨data, cell.next⟩) (kept ++ rest) =
      listed state.walk.heap (kept ++ rest) := by
    refine List.map_congr_left fun other _ => ?_
    by_cases isNode : other = node
    · subst isNode
      rw [contents, Function.update_self, before, Option.map_some, Option.map_some, thread]
    · rw [contents, Function.update_of_ne isNode]
  constructor
  case list => exact links ▸ bookkept.list
  case cleaning => exact bookkept.cleaning
  case emptied => exact bookkept.emptied
  case opened => exact bookkept.opened
  case conserved => exact same ▸ bookkept.conserved
  case events => exact bookkept.events
  case joined => exact bookkept.joined
  case sound => exact bookkept.sound
  case holds =>
    intro other member found isData
    by_cases isNode : other = node
    · subst isNode
      simp only [contents, Function.update_self, Option.some.injEq] at isData
      subst isData
      obtain ⟨connection, owner, sameFd⟩ := bookkept.holds other member cell.data before
      exact ⟨connection, by rw [thread, owner], by rw [fd, sameFd]⟩
    · simp only [contents, Function.update_of_ne isNode] at isData
      exact bookkept.holds other member found isData

/-- A new thread gets a new node in front of the list. -/
theorem insertNode (bookkept : Bookkept state kept rest done) {address : Nat}
    (granted : state.walk.heap address = none) (accepting : state.pc = .accepting)
    (created : state.isFdCreated = true) (client : SockaddrIn) (clientFd : Nat) :
    Bookkept (state.insertNode client clientFd address) (address :: kept) rest done := by
  have outside : address ∉ kept ++ rest := fun member => by
    obtain ⟨data, contents⟩ := bookkept.list.exists_contents member
    cases ((Heap.contents_eq_none_iff _ _).mpr granted).symm.trans contents
  have contents := state.walk.heap.contents_store address
    ⟨⟨state.connections.length, clientFd, false⟩, state.walk.head⟩
  have isAccepting : (state.insertNode client clientFd address).pc = .accepting := accepting
  constructor
  case opened => exact fun _ => created
  case events => exact bookkept.events
  case sound => exact bookkept.sound
  case list =>
    have links := state.walk.heap.links_store address
      ⟨⟨state.connections.length, clientFd, false⟩, state.walk.head⟩
    exact links ▸ bookkept.list.push outside
  case cleaning =>
    intro leaving cleaning
    cases isAccepting.symm.trans cleaning
  case emptied =>
    intro retval returned
    cases isAccepting.symm.trans returned
  case conserved =>
    have others : listed (state.insertNode client clientFd address).walk.heap (kept ++ rest) =
        listed state.walk.heap (kept ++ rest) := listed_congr fun node member => by
      rw [MainState.insertNode, contents,
        Function.update_of_ne (ne_of_mem_of_not_mem member outside)]
    have first : (state.insertNode client clientFd address).walk.heap.contents address =
        some ⟨state.connections.length, clientFd, false⟩ := by
      rw [MainState.insertNode, contents, Function.update_self]
    rw [List.cons_append, listed_cons first, others, created_insertNode]
    exact (bookkept.conserved.cons _).trans (List.perm_append_singleton _ _).symm
  case holds =>
    intro node member data isData
    rw [MainState.insertNode, contents] at isData
    by_cases isNew : node = address
    · subst isNew
      rw [Function.update_self] at isData
      obtain rfl := Option.some.inj isData
      exact ⟨⟨node, clientFd, client, .started⟩, by simp [MainState.insertNode], rfl⟩
    · rw [Function.update_of_ne isNew] at isData
      have earlier : node ∈ kept ++ rest := (List.mem_cons.mp member).resolve_left isNew
      obtain ⟨connection, owner, same⟩ := bookkept.holds node earlier data isData
      exact ⟨connection, by
        rw [MainState.insertNode, List.getElem?_append_left (lt_of_selected owner), owner], same⟩
  case joined =>
    intro entry member connection selected
    have inside := lt_of_created
      (bookkept.conserved.mem_iff.mp (List.mem_append_right _ member))
    rw [MainState.insertNode, List.getElem?_append_left inside] at selected
    exact bookkept.joined entry member connection selected

/-- A node is taken out, joined and freed. -/
theorem dispose {leaving : Option Leaving} {temp : Nat}
    (bookkept : Bookkept state kept (temp :: rest) done) (cleaning : state.pc = .cleaning leaving)
    {data : ThreadData} {next : Walk} (contents : state.walk.heap.contents temp = some data)
    (walks : Walks kept rest next)
    (nextContents : next.heap.contents = Function.update state.walk.heap.contents temp none)
    (nextEvents : next.events = state.walk.events ++ [.join data.threadId, .free temp])
    (joinable : state.IsJoinable data.threadId) :
    Bookkept { state with walk := next } kept rest (done ++ [(data.threadId, temp)]) := by
  have outside : temp ∉ kept ++ rest := bookkept.list.outside
  have others : ∀ node ∈ kept ++ rest,
      next.heap.contents node = state.walk.heap.contents node := fun node member => by
    rw [nextContents, Function.update_of_ne (ne_of_mem_of_not_mem member outside)]
  constructor
  case list => exact walks.list
  case opened => exact bookkept.opened
  case sound => exact bookkept.sound
  case cleaning =>
    intro other isCleaning
    exact ⟨walks.current, walks.previous, (bookkept.cleaning other isCleaning).2.2⟩
  case emptied =>
    intro retval returned
    cases cleaning.symm.trans returned
  case conserved =>
    have before : listed state.walk.heap (kept ++ temp :: rest) =
        listed state.walk.heap kept ++ (data.threadId, temp) :: listed state.walk.heap rest := by
      rw [← listed_cons contents]
      exact List.map_append
    have after : listed next.heap (kept ++ rest) =
        listed state.walk.heap kept ++ listed state.walk.heap rest := by
      rw [listed_congr others]
      exact List.map_append
    have conserved := bookkept.conserved
    rw [before] at conserved
    rw [after, ← List.append_assoc]
    exact ((List.perm_append_singleton _ _).trans
      (List.perm_middle.symm.append_right done)).trans conserved
  case holds =>
    intro node member found isData
    have earlier : node ∈ kept ++ temp :: rest := by
      rw [List.mem_append] at member ⊢
      exact member.imp_right (List.mem_cons_of_mem temp)
    exact bookkept.holds node earlier found ((others node member).symm.trans isData)
  case events =>
    rw [nextEvents, bookkept.events, disposals, disposals, List.flatMap_append]
    rfl
  case joined =>
    intro entry member connection selected
    rcases List.mem_append.mp member with earlier | new
    · exact bookkept.joined entry earlier connection selected
    · obtain rfl := List.mem_singleton.mp new
      exact joinable connection selected

/-- A node is kept, while not all are taken out. -/
theorem keep {leaving : Option Leaving} {temp : Nat}
    (bookkept : Bookkept state kept (temp :: rest) done) (cleaning : state.pc = .cleaning leaving)
    (isNone : leaving.isSome = false) {next : Walk} (walks : Walks (kept ++ [temp]) rest next)
    (sameHeap : next.heap = state.walk.heap) (sameEvents : next.events = state.walk.events) :
    Bookkept { state with walk := next } (kept ++ [temp]) rest done := by
  constructor
  case list => exact walks.list
  case opened => exact bookkept.opened
  case events => exact sameEvents.trans bookkept.events
  case joined => exact bookkept.joined
  case sound => exact bookkept.sound
  case cleaning =>
    intro other isCleaning
    obtain rfl := MainPc.cleaning.inj (isCleaning.symm.trans cleaning)
    exact ⟨walks.current, walks.previous, fun isSome => by simp [isNone] at isSome⟩
  case emptied =>
    intro retval returned
    cases cleaning.symm.trans returned
  case conserved =>
    rw [sameHeap, ← List.append_cons]
    exact bookkept.conserved
  case holds =>
    rw [sameHeap, ← List.append_cons]
    exact bookkept.holds

/-- In `ll_clean` the current node is the first one that is not visited yet. -/
theorem walks (bookkept : Bookkept state kept rest done) {leaving : Option Leaving}
    (cleaning : state.pc = .cleaning leaving) {temp : Nat}
    (here : state.walk.current = some temp) :
    ∃ later, rest = temp :: later ∧ Walks kept (temp :: later) state.walk := by
  obtain ⟨current, previous, -⟩ := bookkept.cleaning leaving cleaning
  rw [here] at current
  obtain ⟨later, rfl⟩ := List.head?_eq_some_iff.mp current.symm
  exact ⟨later, rfl, bookkept.list, here, previous⟩

/-- A visit of `ll_clean` keeps a node, or is done with it. It leaves one node less to visit, and
changes no node that it leaves. -/
theorem visit_nearer (bookkept : Bookkept state kept rest done) {leaving : Option Leaving}
    (cleaning : state.pc = .cleaning leaving) {temp : Nat} {node : Cell ThreadData} {next : Walk}
    (here : state.walk.current = some temp) (allocated : state.walk.heap temp = some node)
    (joinable : (node.data.completeFlag || leaving.isSome) = true →
      state.IsJoinable node.data.threadId)
    (visited : state.walk.visit leaving.isSome = some next) :
    ∃ nextKept nextRest nextDone,
      Bookkept { state with walk := next } nextKept nextRest nextDone ∧
        rest = temp :: nextRest ∧ (nextKept ++ nextRest).length ≤ (kept ++ rest).length ∧
        ∀ other data, next.heap.contents other = some data →
          state.walk.heap.contents other = some data := by
  obtain ⟨later, rfl, walks⟩ := bookkept.walks cleaning here
  have contents : state.walk.heap.contents temp = some node.data :=
    Heap.contents_of_cell allocated
  cases removes : node.data.completeFlag || leaving.isSome with
  | true =>
      obtain ⟨after, result, nextWalks, nextContents, nextEvents⟩ :=
        walks.visit_remove contents removes
      obtain rfl := Option.some.inj (visited.symm.trans result)
      refine ⟨kept, later, _, bookkept.dispose cleaning contents nextWalks nextContents nextEvents
        (joinable removes), rfl, by simp, ?_⟩
      intro other data found
      rw [nextContents, Function.update_apply] at found
      split at found
      next => cases found
      next => exact found
  | false =>
      obtain ⟨running, isNone⟩ : node.data.completeFlag = false ∧ leaving.isSome = false := by
        simpa using removes
      rw [isNone] at visited
      obtain ⟨after, result, nextWalks, sameHeap, sameEvents⟩ :=
        walks.visit_keep contents running
      obtain rfl := Option.some.inj (visited.symm.trans result)
      exact ⟨kept ++ [temp], later, _,
        bookkept.keep cleaning isNone nextWalks sameHeap sameEvents, rfl, by simp,
        fun _ _ found => sameHeap ▸ found⟩

/-- A visit does not fail. -/
theorem visit_isSome (bookkept : Bookkept state kept rest done) {leaving : Option Leaving}
    (cleaning : state.pc = .cleaning leaving) {temp : Nat}
    (here : state.walk.current = some temp) :
    (∃ node, state.walk.heap temp = some node) ∧
      ∃ next, state.walk.visit leaving.isSome = some next := by
  obtain ⟨rest, rfl, walks⟩ := bookkept.walks cleaning here
  obtain ⟨data, contents⟩ := bookkept.list.exists_contents
    (List.mem_append_right kept List.mem_cons_self)
  refine ⟨⟨_, walks.cell contents⟩, ?_⟩
  cases removes : data.completeFlag || leaving.isSome with
  | true =>
      obtain ⟨next, result, -⟩ := walks.visit_remove contents removes
      exact ⟨next, result⟩
  | false =>
      obtain ⟨running, isNone⟩ : data.completeFlag = false ∧ leaving.isSome = false := by
        simpa using removes
      obtain ⟨next, result, -⟩ := walks.visit_keep contents running
      exact ⟨next, isNone ▸ result⟩

/-- The end of `main`: the last `ll_clean` has emptied the list. -/
theorem finish (bookkept : Bookkept state kept rest done) {leaving : Leaving}
    (cleaning : state.pc = .cleaning (some leaving)) (ended : state.walk.current = none) :
    Bookkept state.finish kept rest done := by
  obtain ⟨current, -, clearing⟩ := bookkept.cleaning _ cleaning
  have empty : kept ++ rest = [] := by
    rw [ended] at current
    rw [clearing rfl, List.head?_eq_none_iff.mp current.symm]
    rfl
  exact bookkept.elsewhere (fun _ isCleaning => by cases isCleaning) (fun _ _ => empty)
    (by simp [MainState.finish]) (by simp [MainState.finish]) (by simp [MainState.finish])
    (by simp [MainState.finish])

/-- There is no thread before the device is open. -/
theorem nothing (bookkept : Bookkept state kept rest done)
    (notCreated : state.isFdCreated = false) : kept ++ rest = [] := by
  have empty : state.connections = [] := by
    by_contra nonempty
    cases notCreated.symm.trans (bookkept.opened nonempty)
  have conserved := bookkept.conserved
  rw [MainState.created, empty, List.mapIdx_nil] at conserved
  exact List.map_eq_nil_iff.mp (List.append_eq_nil_iff.mp conserved.eq_nil).1

/-- A state that differs from this one only in what does not matter, before `ll_clean`. -/
theorem accepts (bookkept : Bookkept state kept rest done) {client : SockaddrIn} {clientFd : Nat}
    {ready : MainState} (accepts : Accepts state client clientFd ready) :
    Bookkept ready kept rest done ∧ ready.pc = state.pc ∧ ready.walk = state.walk ∧
      ready.isFdCreated = true := by
  cases accepts with
  | later created => exact ⟨bookkept.congr rfl rfl rfl rfl id, rfl, rfl, created⟩
  | first => exact ⟨bookkept.congr rfl rfl rfl rfl fun _ => rfl, rfl, rfl, rfl⟩

theorem step (bookkept : Bookkept state kept rest done) (step : MainStep) :
    ∃ kept rest done, Bookkept (mainStep state step) kept rest done := by
  have moves := mainStep_moves state step
  generalize mainStep state step = after at moves
  cases moves with
  | idle => exact ⟨kept, rest, done, bookkept⟩
  | signals => exact ⟨kept, rest, done, bookkept.congr rfl rfl rfl rfl id⟩
  | polls => exact ⟨_, _, _, bookkept.startClean none⟩
  | leaves outcome leaving => exact ⟨_, _, _, bookkept.startClean (some leaving)⟩
  | openFails client clientFd node created accepting running grants notCreated =>
      exact ⟨kept, rest, done, bookkept.elsewhere (fun _ cleaning => by cases cleaning)
        (fun _ _ => bookkept.nothing notCreated) rfl rfl rfl rfl⟩
  | abandons outcome client clientFd ready leaving accepting accepts =>
      exact ⟨_, _, _, (bookkept.accepts accepts).1.startClean (some leaving)⟩
  | starts outcome client clientFd address ready accepting accepts granted =>
      obtain ⟨readyBookkept, samePc, sameWalk, created⟩ := bookkept.accepts accepts
      exact ⟨_, _, _, (readyBookkept.insertNode (sameWalk ▸ granted) (samePc.trans accepting)
        created client clientFd).startClean none⟩
  | resumes =>
      exact ⟨kept, rest, done, bookkept.elsewhere (fun _ cleaning => by cases cleaning)
        (fun _ returned => by cases returned) rfl rfl rfl rfl⟩
  | finishes leaving cleaning ended => exact ⟨kept, rest, done, bookkept.finish cleaning ended⟩
  | visits leaving temp node next cleaning here allocated joinable visited =>
      obtain ⟨_, _, _, nextBookkept, -⟩ :=
        bookkept.visit_nearer cleaning here allocated joinable visited
      exact ⟨_, _, _, nextBookkept⟩
  | visitFaults leaving temp cleaning here faults =>
      obtain ⟨⟨node, allocated⟩, next, visited⟩ := bookkept.visit_isSome cleaning here
      rcases faults with freed | faults
      · cases freed.symm.trans allocated
      · cases faults.symm.trans visited
  | threadFaults step thread connection selected active freed =>
      obtain ⟨-, data, contents, -⟩ := bookkept.exists_node selected active
      cases ((Heap.contents_eq_none_iff _ _).mpr freed).symm.trans contents
  | begins thread connection address running selected stage points =>
      have next := bookkept.setStage selected (by simp [stage]) (.serving address.sinAddr)
      exact ⟨kept, rest, done, next.congr rfl rfl rfl rfl id⟩
  | completes thread connection addressString node running selected stage allocated =>
      have next := bookkept.setStage selected (by simp [stage]) (.completed addressString)
      exact ⟨kept, rest, done, next.store allocated _ rfl rfl⟩
  | closes thread connection addressString node running selected stage allocated =>
      have next := bookkept.setStage selected (by simp [stage]) .returned
      exact ⟨kept, rest, done, next.congr (by simp) (by simp) (by simp) (by simp) (by simp)⟩

end Bookkept

/-- The books are kept in every run. -/
theorem exists_bookkept (sfd : Nat) (fd : Int) (steps : List MainStep) :
    ∃ kept rest done, Bookkept (mainRun sfd fd steps) kept rest done :=
  Runs.invariant_always (fun state => ∃ kept rest done, Bookkept state kept rest done)
    (fun _ step ⟨_, _, _, bookkept⟩ => bookkept.step step) steps
    ⟨[], [], [], .init sfd fd⟩

/-! ## The last `ll_clean` -/

/-- `ll_clean` is in `pthread_join` for this thread, which has not returned. -/
def MainState.WaitsFor (state : MainState) (leaving : Option Leaving) (thread : Nat)
    (connection : Connection) : Prop :=
  state.pc = .cleaning leaving ∧ state.connections[thread]? = some connection ∧
    connection.stage ≠ .returned ∧
    ∃ temp node, state.walk.current = some temp ∧ state.walk.heap temp = some node ∧
      node.data.threadId = thread ∧ (node.data.completeFlag || leaving.isSome) = true

theorem mainStep_visit {state : MainState} {leaving : Option Leaving}
    (cleaning : state.pc = .cleaning leaving) : mainStep state .visit = state.clean leaving := by
  simp only [mainStep, cleaning]

/-- A pass of `ll_clean` does something, or it waits for a thread. -/
theorem Bookkept.visit_or_waits {state : MainState} {kept rest : List Nat}
    {done : List (Nat × Nat)} (bookkept : Bookkept state kept rest done)
    {leaving : Option Leaving} (cleaning : state.pc = .cleaning leaving) :
    mainStep state .visit ≠ state ∨
      ∃ thread connection, state.WaitsFor leaving thread connection := by
  rw [mainStep_visit cleaning]
  cases here : state.walk.current with
  | none =>
      refine .inl fun same => ?_
      have samePc := congrArg MainState.pc same
      rw [cleaning] at samePc
      cases leaving with
      | none =>
          simp only [MainState.clean, here] at samePc
          cases samePc
      | some reason =>
          simp only [MainState.clean, here, MainState.finish] at samePc
          cases samePc
  | some temp =>
      obtain ⟨⟨node, allocated⟩, next, visited⟩ := bookkept.visit_isSome cleaning here
      by_cases waits : (node.data.completeFlag || leaving.isSome) = true ∧
          ¬state.IsJoinable node.data.threadId
      case pos =>
        obtain ⟨connection, selected, active⟩ : ∃ connection,
            state.connections[node.data.threadId]? = some connection ∧
              connection.stage ≠ .returned := by
          simpa [MainState.IsJoinable] using waits.2
        exact .inr ⟨_, connection, cleaning, selected, active, temp, node, here, allocated, rfl,
          waits.1⟩
      case neg =>
        refine .inl fun same => ?_
        have joinable : (node.data.completeFlag || leaving.isSome) = true →
            state.IsJoinable node.data.threadId := by
          intro joins
          by_contra notYet
          exact waits ⟨joins, notYet⟩
        obtain ⟨nextKept, nextRest, _, nextBookkept, rfl, -⟩ :=
          bookkept.visit_nearer cleaning here allocated joinable visited
        have moved : state.clean leaving = { state with walk := next } := by
          simp only [MainState.clean, here, allocated, if_neg waits, visited]
        rw [moved] at same
        have stays : next.current = some temp :=
          (congrArg Walk.current (congrArg MainState.walk same)).trans here
        -- the node would be in front of itself
        have first := (nextBookkept.cleaning leaving cleaning).1
        have outside : temp ∉ kept ++ nextRest := bookkept.list.outside
        apply outside
        apply List.mem_append_right
        exact List.mem_of_mem_head? (first.symm.trans stays)

/-- While the threads that `ll_clean` joins have returned, it goes on. -/
theorem Bookkept.goesOn {state : MainState} {kept rest : List Nat} {done : List (Nat × Nat)}
    {temp : Nat} (bookkept : Bookkept state kept (temp :: rest) done) {leaving : Option Leaving}
    (cleaning : state.pc = .cleaning leaving)
    (returned : ∀ connection ∈ state.connections, connection.stage = .returned) :
    ∃ walk nextKept nextDone, mainStep state .visit = { state with walk } ∧
      Bookkept { state with walk } nextKept rest nextDone := by
  have here : state.walk.current = some temp := (bookkept.cleaning leaving cleaning).1
  have joinable : ∀ thread, state.IsJoinable thread := fun thread connection selected =>
    returned connection (List.mem_of_getElem? selected)
  obtain ⟨⟨node, allocated⟩, walk, visited⟩ := bookkept.visit_isSome cleaning here
  obtain ⟨nextKept, nextRest, nextDone, nextBookkept, isNext, -⟩ :=
    bookkept.visit_nearer cleaning here allocated (fun _ => joinable _) visited
  obtain rfl := (List.cons.inj isNext).2
  refine ⟨walk, nextKept, nextDone, ?_, nextBookkept⟩
  rw [mainStep_visit cleaning]
  simp only [MainState.clean, here, allocated, joinable, not_true_eq_false, and_false, if_false,
    visited]

/-- When all threads have returned, the last `ll_clean` ends after a pass for each node and one
more. -/
theorem Bookkept.clears {state : MainState} {kept rest : List Nat} {done : List (Nat × Nat)}
    (bookkept : Bookkept state kept rest done) {leaving : Leaving}
    (cleaning : state.pc = .cleaning (some leaving))
    (returned : ∀ connection ∈ state.connections, connection.stage = .returned) :
    (Runs.run mainStep state (List.replicate (rest.length + 1) .visit)).pc = .returned 0 := by
  induction rest generalizing state kept done with
  | nil =>
      have ended : state.walk.current = none := (bookkept.cleaning _ cleaning).1
      have finishes : mainStep state .visit = state.finish := by
        rw [mainStep_visit cleaning]
        simp only [MainState.clean, ended]
      change (mainStep state .visit).pc = _
      rw [finishes]
      rfl
  | cons temp rest ih =>
      obtain ⟨walk, nextKept, nextDone, visits, nextBookkept⟩ :=
        bookkept.goesOn cleaning returned
      rw [List.length_cons, List.replicate_succ, Runs.run_cons, visits]
      exact ih nextBookkept cleaning returned

/-- `main` stays in the last `ll_clean` until it returns 0. -/
theorem mainStep_leaving {state : MainState} {leaving : Leaving}
    (left : state.pc = .cleaning (some leaving) ∨ state.pc = .returned 0) (step : MainStep) :
    (mainStep state step).pc = .cleaning (some leaving) ∨
      (mainStep state step).pc = .returned 0 := by
  have how := mainStep_moves state step
  generalize mainStep state step = after at how
  cases how with
  | idle | signals | visits | visitFaults | threadFaults | begins | completes => exact left
  | closes => simpa [MainState.setStage] using left
  | finishes => exact .inr rfl
  | polls _ accepting | leaves _ _ accepting | openFails _ _ _ _ accepting
  | abandons _ _ _ _ _ accepting | starts _ _ _ _ _ accepting =>
      rcases left with left | left
      · cases accepting.symm.trans left
      · cases accepting.symm.trans left
  | resumes cleaning =>
      rcases left with left | left
      · cases cleaning.symm.trans left
      · cases cleaning.symm.trans left

/-! ## After the last `ll_clean` -/

theorem created_map_fst (state : MainState) :
    state.created.map Prod.fst = List.range state.connections.length := by
  refine List.ext_getElem? fun thread => ?_
  rw [MainState.created, List.getElem?_map, List.getElem?_mapIdx]
  by_cases inside : thread < state.connections.length
  · rw [List.getElem?_eq_getElem inside, List.getElem?_range inside]
    rfl
  · rw [List.getElem?_eq_none (by omega), List.getElem?_eq_none (by simpa using inside)]
    rfl

theorem count_join_disposals (done : List (Nat × Nat)) (thread : Nat) :
    (disposals done).count (.join thread) = (done.map Prod.fst).count thread := by
  induction done with
  | nil => rfl
  | cons entry done ih =>
      have split : disposals (entry :: done) =
          .join entry.1 :: .free entry.2 :: disposals done := rfl
      rw [split, List.map_cons, List.count_cons, List.count_cons, ih, List.count_cons]
      simp

/-- Every thread that was started is joined once, and returned before; its node is freed after
that, and no other; and no freed node is touched. -/
structure JoinsAll (state : MainState) : Prop where
  paired : ∃ done : List (Nat × Nat), done.Perm state.created ∧
    state.walk.events = disposals done
  once : ∀ thread < state.connections.length, state.walk.events.count (.join thread) = 1
  returned : ∀ connection ∈ state.connections, connection.stage = .returned
  sound : state.fault = false

/-- A list that is empty has given all its nodes up. -/
theorem Bookkept.joinsAll {state : MainState} {kept rest : List Nat} {done : List (Nat × Nat)}
    (bookkept : Bookkept state kept rest done) (empty : kept ++ rest = []) : JoinsAll state := by
  have all : done.Perm state.created := by
    have conserved := bookkept.conserved
    rw [empty] at conserved
    exact conserved
  refine ⟨⟨done, all, bookkept.events⟩, fun thread inside => ?_, fun connection member => ?_,
    bookkept.sound⟩
  · rw [bookkept.events, count_join_disposals, (all.map Prod.fst).count_eq, created_map_fst]
    exact List.count_eq_one_of_mem List.nodup_range (List.mem_range.mpr inside)
  · obtain ⟨thread, selected⟩ := List.mem_iff_getElem?.mp member
    have started : (thread, connection.node) ∈ state.created := by
      refine List.mem_iff_getElem?.mpr ⟨thread, ?_⟩
      rw [MainState.created, List.getElem?_mapIdx, selected]
      rfl
    exact bookkept.joined _ (all.mem_iff.mpr started) connection selected

/-- The last `ll_clean` joins the threads that have returned: `main` stays in it until it returns
0, it stops only in `pthread_join`, for a thread that has not returned, and when all have returned
it ends after a pass for each node that is left and one more. -/
structure ClearsList (sfd : Nat) (fd : Int) (steps : List MainStep) (leaving : Leaving) :
    Prop where
  stays : ∀ more, (mainRun sfd fd (steps ++ more)).pc = .cleaning (some leaving) ∨
    (mainRun sfd fd (steps ++ more)).pc = .returned 0
  waits : mainStep (mainRun sfd fd steps) .visit = mainRun sfd fd steps →
    ∃ thread connection, (mainRun sfd fd steps).WaitsFor (some leaving) thread connection
  clears : (∀ connection ∈ (mainRun sfd fd steps).connections, connection.stage = .returned) →
    ∃ nodes, IsList (mainRun sfd fd steps).walk.heap.links (mainRun sfd fd steps).walk.head nodes ∧
      nodes.length ≤ (mainRun sfd fd steps).connections.length ∧
      (mainRun sfd fd (steps ++ List.replicate (nodes.length + 1) .visit)).pc = .returned 0 ∧
      JoinsAll (mainRun sfd fd (steps ++ List.replicate (nodes.length + 1) .visit))

/-- When `main` has returned 0, all threads are joined. -/
theorem joinsAll_of_returned {sfd : Nat} {fd : Int} {steps : List MainStep}
    (returned : (mainRun sfd fd steps).pc = .returned 0) : JoinsAll (mainRun sfd fd steps) := by
  obtain ⟨kept, rest, done, bookkept⟩ := exists_bookkept sfd fd steps
  exact bookkept.joinsAll (bookkept.emptied 0 returned)

theorem clearsList_run {sfd : Nat} {fd : Int} {steps : List MainStep} {leaving : Leaving}
    (left : (mainRun sfd fd steps).pc = .cleaning (some leaving)) :
    ClearsList sfd fd steps leaving := by
  obtain ⟨kept, rest, done, bookkept⟩ := exists_bookkept sfd fd steps
  constructor
  case stays =>
    intro more
    rw [mainRun, Runs.run_append]
    exact Runs.invariant_always
      (fun state : MainState => state.pc = .cleaning (some leaving) ∨ state.pc = .returned 0)
      (fun _ step left => mainStep_leaving left step) more (.inl left)
  case waits => exact (bookkept.visit_or_waits left).resolve_left ∘ not_not.mpr
  case clears =>
    intro returned
    obtain rfl : kept = [] := (bookkept.cleaning _ left).2.2 rfl
    have ends := bookkept.clears left returned
    rw [mainRun, ← Runs.run_append] at ends
    refine ⟨rest, bookkept.list, ?_, ends, joinsAll_of_returned ends⟩
    have nodes := bookkept.conserved.length_eq
    rw [List.length_append, listed, List.length_map, MainState.created, List.length_mapIdx]
      at nodes
    exact Nat.le_of_add_right_le nodes.le

/-- `ll_clean` does what it should to any list of nodes while the flags turn. However `main` leaves
its loop, the last `ll_clean` joins each thread as far as they return, and once `main` has returned
past it, every thread is joined. -/
theorem threads_joined_once :
    (∀ (heap : Heap ThreadData) (head : Option Nat) (nodes : List Nat),
      IsList heap.links head nodes → ∀ (isClear : Bool) (turns : Nat → Nat → Bool) (fuel : Nat),
        nodes.length < fuel → ∃ result kept removed,
          llClean fuel heap head isClear turns = some result ∧
            CleansList heap nodes isClear turns result kept removed) ∧
      (∀ (sfd : Nat) (fd : Int) (steps : List MainStep) (leaving : Leaving),
        (mainRun sfd fd steps).pc = .cleaning (some leaving) →
          ClearsList sfd fd steps leaving) ∧
      ∀ (sfd : Nat) (fd : Int) (steps : List MainStep),
        (mainRun sfd fd steps).pc = .returned 0 → JoinsAll (mainRun sfd fd steps) := by
  refine ⟨?_, ?_, ?_⟩
  case refine_1 =>
    intro heap head nodes isList isClear turns fuel enough
    exact llClean_cleansList isList isClear turns enough
  case refine_2 => exact fun _ _ _ _ left => clearsList_run left
  case refine_3 => exact fun _ _ _ returned => joinsAll_of_returned returned

/-- Two nodes, of which the second is taken out, and a server that ends on a signal with two
connections, the second of them done: when the first is done, too, and when all is over. -/
theorem threads_joined_once_two :
    let leaves : List MainStep := [.accept (.connected ⟨1, 1⟩ 4 (some 5) (some 16) true), .visit,
      .visit, .accept (.connected ⟨2, 2⟩ 6 none (some 32) true), .begin 1, .complete 1, .close 1,
      .visit, .visit, .visit, .signal, .accept .again]
    let returns : List MainStep := [.begin 0, .complete 0, .close 0]
    (∃ result kept removed,
      llClean 3 ((Heap.empty.store 16 ⟨⟨1, 6, false⟩, some 32⟩).store 32 ⟨⟨0, 5, true⟩, none⟩)
          (some 16) false (fun _ _ => false) = some result ∧
        CleansList
          ((Heap.empty.store 16 ⟨⟨1, 6, false⟩, some 32⟩).store 32 ⟨⟨0, 5, true⟩, none⟩) [16, 32]
          false (fun _ _ => false) result kept removed) ∧
      ClearsList 3 0 leaves .signal ∧
      ClearsList 3 0 (leaves ++ returns) .signal ∧
      JoinsAll (mainRun 3 0 (leaves ++ returns ++ [.visit, .visit])) := by
  intro leaves returns
  exact ⟨threads_joined_once.1 _ _ [16, 32] ⟨rfl, some 32, rfl, rfl, none, rfl, rfl⟩ _ _ _
      (by decide),
    threads_joined_once.2.1 _ _ _ _ rfl, threads_joined_once.2.1 _ _ _ _ rfl,
    threads_joined_once.2.2 _ _ _ rfl⟩

/-- A thread that serves its client stays where it is until it sets its flag. -/
theorem serving_stays {state : MainState} {thread : Nat} {connection : Connection}
    (selected : state.connections[thread]? = some connection) {addressString : UInt32}
    (serving : connection.stage = .serving addressString) {step : MainStep}
    (idle : step ≠ .complete thread) :
    (mainStep state step).connections[thread]? = some connection := by
  have other : ∀ {acting : Nat} {found : Connection} (stage : ConnectionStage), acting ≠ thread →
      (state.setStage acting found stage).connections[thread]? = some connection := by
    intro acting found stage different
    rw [MainState.setStage, List.getElem?_set_ne different]
    exact selected
  have how := mainStep_moves state step
  generalize mainStep state step = after at how
  cases how with
  | idle | signals | polls | leaves | openFails | resumes | visits | visitFaults | threadFaults =>
      exact selected
  | finishes => simpa [MainState.finish] using selected
  | abandons outcome client clientFd ready leaving accepting accepts =>
      cases accepts with
      | later | first => exact selected
  | starts outcome client clientFd address ready accepting accepts =>
      cases accepts with
      | later | first =>
          exact (List.getElem?_append_left (lt_of_selected selected)).trans selected
  | begins acting found address running isSelected stage =>
      apply other
      rintro rfl
      obtain rfl := Option.some.inj (isSelected.symm.trans selected)
      cases stage.symm.trans serving
  | completes acting found =>
      apply other
      rintro rfl
      exact idle rfl
  | closes acting found text node running isSelected stage =>
      simp only [MainState.closeFd_connections]
      apply other
      rintro rfl
      obtain rfl := Option.some.inj (isSelected.symm.trans selected)
      cases stage.symm.trans serving

/-- A client says nothing, and a signal comes. `main` leaves its loop, but as long as the client
stays silent its thread is not joined. -/
theorem not_joinsAll_silent_client :
    let leaves : List MainStep := [.accept (.connected ⟨1, 1⟩ 4 (some 5) (some 16) true), .visit,
      .visit, .begin 0, .signal, .accept .again]
    (mainRun 3 0 leaves).pc = .cleaning (some .signal) ∧
      ∀ more, (∀ step ∈ more, step ≠ .complete 0) → ¬JoinsAll (mainRun 3 0 (leaves ++ more)) := by
  intro leaves
  refine ⟨rfl, fun more silent joinsAll => ?_⟩
  have serving : (mainRun 3 0 (leaves ++ more)).connections[0]? =
      some ⟨16, 4, ⟨1, 1⟩, .serving 1⟩ := by
    have along : Runs.Along mainStep (fun _ step => step ≠ .complete 0) (mainRun 3 0 leaves) more :=
      .always fun _ => silent
    rw [mainRun, Runs.run_append]
    refine Runs.invariant
      (fun state : MainState => state.connections[0]? = some ⟨16, 4, ⟨1, 1⟩, .serving 1⟩)
      (fun state step selected idle => ?_) rfl along
    exact serving_stays selected rfl idle
  cases joinsAll.returned _ (List.mem_of_getElem? serving)

end Aesd
