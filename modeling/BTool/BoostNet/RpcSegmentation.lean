import BTool.BoostNet.RpcFraming

/-! What a connection makes of a stream of any bytes that comes in pieces. A malformed head behind
other messages takes with it those that came in the same piece, and no others. -/

namespace BTool.BoostNet

open BTool.Foundation

/-- Who gets a message. -/
inductive Proxy where
  | bind
  | sync
  | callback
deriving DecidableEq

/-- The loop of `read_cbk` over the messages. A response of no known model ends it and the connection. -/
def dispatch : List ProxyMsg → List (Proxy × ProxyMsg) × Bool
  | [] => ([], false)
  | item :: units =>
    if item.head.commModel = CommModel.request then ((.bind, item) :: (dispatch units).1, (dispatch units).2)
    else if item.head.rpcModel = RpcModel.future then ((.sync, item) :: (dispatch units).1, (dispatch units).2)
    else if item.head.rpcModel = RpcModel.callback then
      ((.callback, item) :: (dispatch units).1, (dispatch units).2)
    else ([], true)

/-- What has been read and not consumed, what has been delivered, and whether it has been closed. -/
structure Connection where
  buffer : List UInt8
  delivered : List (Proxy × ProxyMsg)
  closed : Bool
deriving DecidableEq

namespace Connection

def opened : Connection := ⟨[], [], false⟩

/-- `read_cbk`, behind the read of a chunk. A closed connection reads no more. -/
def readCbk (connection : Connection) (chunk : List UInt8) : Connection :=
  if connection.closed then connection
  else
    let buffer := connection.buffer ++ chunk
    let (units, dealLen, err) := unpackageMsg buffer
    if err.status ≠ .ok then { connection with buffer, closed := true }
    else
      let (delivered, closes) := dispatch units
      if closes then { buffer, delivered := connection.delivered ++ delivered, closed := true }
      else
        { buffer := buffer.drop dealLen
          delivered := connection.delivered ++ delivered
          closed := false }

theorem delivered_prefix_readCbk (connection : Connection) (chunk : List UInt8) :
    connection.delivered <+: (connection.readCbk chunk).delivered := by
  cases closed : connection.closed with
  | true => simp [readCbk, closed]
  | false =>
    simp only [readCbk, closed, Bool.false_eq_true, if_false]
    split
    · exact List.prefix_refl _
    · split <;> exact List.prefix_append _ _

end Connection

/-- `RpcService::read_cbk` closes the session. -/
def RpcService.readCbk (connection : Connection) (chunk : List UInt8) : Connection :=
  connection.readCbk chunk

/-- `RpcClient::read_cbk` shuts the session down. -/
def RpcClient.readCbk (connection : Connection) (chunk : List UInt8) : Connection :=
  connection.readCbk chunk

variable {stream rest left : List UInt8} {items front later : List ProxyMsg} {bad : Bool}
    {chunk : List UInt8}

/-- What comes behind the messages that end the connection is not looked at. -/
theorem dispatch_append (front later : List ProxyMsg) :
    dispatch (front ++ later) =
      if (dispatch front).2 then dispatch front
      else ((dispatch front).1 ++ (dispatch later).1, (dispatch later).2) := by
  induction front with
  | nil => rfl
  | cons item front ih =>
    rw [List.cons_append, dispatch, dispatch, ih]
    cases closes : (dispatch front).2 <;> (repeat' split) <;> simp_all

theorem dispatch_append_of_closed (closed : (dispatch front).2 = true) :
    dispatch (front ++ later) = dispatch front := by
  rw [dispatch_append, if_pos closed]

theorem dispatch_append_of_open (opened : (dispatch front).2 = false) :
    dispatch (front ++ later) = ((dispatch front).1 ++ (dispatch later).1, (dispatch later).2) := by
  rw [dispatch_append, if_neg (by simp [opened])]

/-- A response of no known model. -/
structure ProxyMsg.Unknown (item : ProxyMsg) : Prop where
  response : item.head.commModel ≠ CommModel.request
  noFuture : item.head.rpcModel ≠ RpcModel.future
  noCallback : item.head.rpcModel ≠ RpcModel.callback

/-- Nothing is delivered where the first message is such a response. -/
theorem dispatch_eq_nil_iff {item : ProxyMsg} : (dispatch (item :: items)).1 = [] ↔
    item.Unknown := by
  rw [dispatch]
  constructor
  · intro nothing
    split at nothing
    · cases nothing
    · rename_i response
      split at nothing
      · cases nothing
      · rename_i noFuture
        split at nothing
        · cases nothing
        · rename_i noCallback
          exact ⟨response, noFuture, noCallback⟩
  · intro unknown
    rw [if_neg unknown.response, if_neg unknown.noFuture, if_neg unknown.noCallback]

/-- What a connection is after the stream so far. -/
structure Follows (connection : Connection) (stream : List UInt8) (items : List ProxyMsg)
    (rest : List UInt8) (bad : Bool) : Prop where
  drains : rpcFraming.Drains stream items rest bad
  closed : connection.closed = ((dispatch items).2 || bad)
  buffer : connection.closed = false → connection.buffer = rest
  delivered : bad = false → connection.delivered = (dispatch items).1
  within : connection.delivered <+: (dispatch items).1

theorem opened_follows : Follows .opened [] [] [] false :=
  ⟨Framing.drains_nil, rfl, fun _ => rfl, fun _ => rfl, List.prefix_refl _⟩

/-- A step with a further chunk of the stream. -/
theorem Follows.readCbk {connection : Connection}
    (follows : Follows connection stream items rest bad) (chunk : List UInt8) :
    ∃ items' rest' bad', Follows (connection.readCbk chunk) (stream ++ chunk) items' rest' bad' := by
  obtain ⟨drains, closed, buffer, delivered, within⟩ := follows
  cases bad with
  | true =>
    have past : connection.closed = true := by rw [closed, Bool.or_true]
    have same : connection.readCbk chunk = connection := by simp [Connection.readCbk, past]
    refine ⟨items, rest ++ chunk, true, ⟨drains.append_malformed, ?_, ?_, by simp, ?_⟩⟩
    · rw [same, closed]
    · rw [same, past]
      rintro ⟨⟩
    · rwa [same]
  | false =>
    obtain ⟨later, rest', bad', back⟩ := rpcFraming.exists_drains (rest ++ chunk)
    have whole := drains.append back
    have delivered := delivered rfl
    refine ⟨items ++ later, rest', bad', ?_⟩
    cases ended : (dispatch items).2 with
    | true =>
      have past : connection.closed = true := by rw [closed, ended, Bool.true_or]
      have same : connection.readCbk chunk = connection := by simp [Connection.readCbk, past]
      have all : dispatch (items ++ later) = dispatch items := dispatch_append_of_closed ended
      rw [same]
      refine ⟨whole, ?_, ?_, ?_, ?_⟩
      · rw [all, ended, past, Bool.true_or]
      · rw [past]
        rintro ⟨⟩
      · rw [all]
        exact fun _ => delivered
      · rwa [all]
    | false =>
      have still : connection.closed = false := by rw [closed, ended, Bool.false_or]
      have read := buffer still
      have all :
          dispatch (items ++ later) = ((dispatch items).1 ++ (dispatch later).1, (dispatch later).2) :=
        dispatch_append_of_open ended
      have behind := back.drop_eq_rest
      rw [List.length_append] at behind
      cases bad' with
      | true =>
        -- The messages in front of the malformed head are not dispatched.
        have closes :
            connection.readCbk chunk =
            { connection with buffer := rest ++ chunk, closed := true } := by
          simp [Connection.readCbk, still, read, unpackageMsg_of_drains back]
        rw [closes]
        refine ⟨whole, ?_, by simp, by simp, ?_⟩
        · rw [Bool.or_true]
        · rw [all]
          exact within.trans (List.prefix_append _ _)
      | false =>
        cases closes : (dispatch later).2 with
        | true =>
          have next : connection.readCbk chunk =
              ⟨rest ++ chunk, (dispatch items).1 ++ (dispatch later).1, true⟩ := by
            simp [Connection.readCbk, still, read, unpackageMsg_of_drains back, RpcError.none,
              closes, delivered]
          rw [next]
          refine ⟨whole, ?_, by simp, fun _ => ?_, ?_⟩
          · rw [all, closes, Bool.or_false]
          · rw [all]
          · simp only [all, List.prefix_rfl]
        | false =>
          have next : connection.readCbk chunk =
              ⟨rest', (dispatch items).1 ++ (dispatch later).1, false⟩ := by
            simp [Connection.readCbk, still, read, unpackageMsg_of_drains back, RpcError.none,
              closes, delivered, behind]
          rw [next]
          refine ⟨whole, ?_, fun _ => rfl, fun _ => ?_, ?_⟩
          · rw [all, closes, Bool.or_false]
          · rw [all]
          · simp only [all, List.prefix_rfl]

/-- After any chunks. -/
theorem Follows.foldl_readCbk {connection : Connection}
    (follows : Follows connection stream items rest bad) (chunks : List (List UInt8)) :
    ∃ items' rest' bad', Follows (chunks.foldl Connection.readCbk connection)
      (stream ++ chunks.flatten) items' rest' bad' := by
  induction chunks generalizing connection stream items rest bad with
  | nil => exact ⟨items, rest, bad, by simpa using follows⟩
  | cons chunk chunks ih =>
    obtain ⟨items', rest', bad', next⟩ := follows.readCbk chunk
    rw [List.foldl_cons, List.flatten_cons, ← List.append_assoc]
    exact ih next

/-- The messages of the stream say what the connection is, however the stream has been cut. -/
theorem Follows.of_cut {chunks : List (List UInt8)} (cut : chunks.flatten = stream)
    (drains : rpcFraming.Drains stream items rest bad) :
    Follows (chunks.foldl Connection.readCbk .opened) stream items rest bad := by
  obtain ⟨items', rest', bad', follows⟩ := opened_follows.foldl_readCbk chunks
  rw [List.nil_append, cut] at follows
  obtain ⟨rfl, rfl, rfl⟩ := drains.unique follows.drains
  exact follows

/-- Any two ways to cut the stream deliver the same messages and leave the connection closed or not
alike. -/
def CutsAlike (readCbk : Connection → List UInt8 → Connection) (stream : List UInt8) : Prop :=
  ∀ first second : List (List UInt8), first.flatten = stream → second.flatten = stream →
    (first.foldl readCbk .opened).delivered = (second.foldl readCbk .opened).delivered ∧
      (first.foldl readCbk .opened).closed = (second.foldl readCbk .opened).closed

/-- Where the malformed head does not come behind a message that is delivered, the cut makes no difference. -/
theorem cutsAlike_of_unknown
    (unknown : ∀ item items rest, rpcFraming.Drains stream (item :: items) rest true →
      item.Unknown) :
    CutsAlike Connection.readCbk stream := by
  intro first second cut cut'
  obtain ⟨items, rest, bad, drains⟩ := rpcFraming.exists_drains stream
  have follows := Follows.of_cut cut drains
  have follows' := Follows.of_cut cut' drains
  refine ⟨?_, follows.closed.trans follows'.closed.symm⟩
  cases bad with
  | false => exact (follows.delivered rfl).trans (follows'.delivered rfl).symm
  | true =>
    have nothing : (dispatch items).1 = [] := by
      cases items with
      | nil => rfl
      | cons item items => exact dispatch_eq_nil_iff.mpr (unknown item items rest drains)
    have within := follows.within
    have within' := follows'.within
    rw [nothing, List.prefix_nil] at within within'
    exact within.trans within'.symm

/-- In one piece such a stream delivers nothing, and with the cut in front of its malformed head all of
its messages. -/
theorem unknown_of_cutsAlike (alike : CutsAlike Connection.readCbk stream) {item : ProxyMsg}
    (drains : rpcFraming.Drains stream (item :: items) rest true) : item.Unknown := by
  obtain ⟨frames, split, front⟩ := drains.frames
  have whole : ([stream].foldl Connection.readCbk .opened).delivered = [] := by
    simp [Connection.readCbk, Connection.opened, unpackageMsg_of_drains drains]
  have early :
      ([frames].foldl Connection.readCbk .opened).delivered = (dispatch (item :: items)).1 :=
    (Follows.of_cut (by simp) front).delivered rfl
  have kept : (dispatch (item :: items)).1 <+:
      ([frames, rest].foldl Connection.readCbk .opened).delivered := by
    rw [← early]
    exact Connection.delivered_prefix_readCbk _ rest
  have same := (alike [stream] [frames, rest] (by simp) (by simp [split])).1
  rw [← same, whole, List.prefix_nil] at kept
  exact dispatch_eq_nil_iff.mp kept

/-- Exactly the streams that have no malformed head behind messages, or that begin with a response of
no known model, are read alike by a service, and by a client, however they are cut. -/
theorem cutsAlike_iff (stream : List UInt8) :
    (CutsAlike RpcService.readCbk stream ↔
        ∀ item items rest, rpcFraming.Drains stream (item :: items) rest true → item.Unknown) ∧
      (CutsAlike RpcClient.readCbk stream ↔
        ∀ item items rest, rpcFraming.Drains stream (item :: items) rest true → item.Unknown) := by
  have both : CutsAlike Connection.readCbk stream ↔
      ∀ item items rest, rpcFraming.Drains stream (item :: items) rest true → item.Unknown :=
    ⟨fun alike _ _ _ => unknown_of_cutsAlike alike, cutsAlike_of_unknown⟩
  exact ⟨both, both⟩

/-- A request without arguments. -/
def oneRequest : Package := ⟨[102], CommModel.request, RpcModel.callback, 1, .ok, []⟩

/-- A request and behind it a head without a name: in two pieces the request is delivered, and in one it
is not. -/
theorem not_cutsAlike_oneRequest :
    let request := oneRequest.packageMsg.getPackage
    let malformed := List.replicate 12 0
    ([request ++ malformed].foldl RpcService.readCbk .opened).delivered = [] ∧
      ([request, malformed].foldl RpcService.readCbk .opened).delivered = [(.bind, oneRequest.message)] ∧
      ¬ CutsAlike RpcService.readCbk (request ++ malformed) := by
  intro request malformed
  have whole : ([request ++ malformed].foldl RpcService.readCbk .opened).delivered = [] := by decide
  have parts :
      ([request, malformed].foldl RpcService.readCbk .opened).delivered =
      [(.bind, oneRequest.message)] := by
    decide
  refine ⟨whole, parts, fun alike => ?_⟩
  have same := (alike [request ++ malformed] [request, malformed] (by simp) (by simp)).1
  rw [whole, parts] at same
  cases same

end BTool.BoostNet
