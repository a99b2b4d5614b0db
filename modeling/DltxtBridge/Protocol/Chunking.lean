import DltxtBridge.Protocol.RoundTrip

/-! Reading any stream, well formed or not: the results do not depend on how the stream is cut
into reads. The coroutine `read_message` reads as `read_message_blocking` does, but the end of its
stream is an error. -/

namespace DltxtBridge.Protocol

namespace Reader

variable {E : Type}

def readChunk (r : Reader E) : Except E ℕ × Reader E :=
  match r.unread with
  | [] => (.ok 0, r)
  | .error code :: rest => (.error code, { r with unread := rest })
  | .data bytes :: rest =>
    if bytes.length = 0 then (.ok 0, { r with unread := rest })
    else (.ok bytes.length, { buffer := r.buffer ++ bytes, unread := rest })

lemma readChunk_unread_lt {r r' : Reader E} {n : ℕ} (h : r.readChunk = (.ok (n + 1), r')) :
    r'.unread.length < r.unread.length := by
  rw [readChunk] at h
  cases hunread : r.unread with
  | nil =>
    rw [hunread] at h
    cases h
  | cons event rest =>
    rw [hunread] at h
    cases event with
    | error code => cases h
    | data bytes =>
      dsimp only at h
      split_ifs at h
      · cases h
      · rw [Prod.mk.injEq] at h
        rw [← h.2]
        exact Nat.lt_succ_self _

def fillBuffer (ready : Bytes → Bool) (r : Reader E) : Option (ReadResult E) × Reader E :=
  if ready r.buffer then (none, r)
  else
    match _h : r.readChunk with
    | (.error code, r') => (some (.thrown code), r')
    | (.ok 0, r') => (some .nullopt, r')
    | (.ok (_ + 1), r') => fillBuffer ready r'
termination_by r.unread.length
decreasing_by exact readChunk_unread_lt _h

lemma awaitBuffer_eq_readChunk (ready : Bytes → Bool) (r : Reader E) :
    awaitBuffer ready r.buffer r.unread =
      if ready r.buffer then (none, r)
      else
        match r.readChunk with
        | (.error code, r') => (some (.thrown code), r')
        | (.ok 0, r') => (some .nullopt, r')
        | (.ok (_ + 1), r') => awaitBuffer ready r'.buffer r'.unread := by
  obtain ⟨buffer, unread⟩ := r
  cases unread with
  | nil => rfl
  | cons event rest =>
    cases event with
    | error code => rfl
    | data bytes =>
      rw [awaitBuffer, readChunk]
      cases bytes with
      | nil => rfl
      | cons byte bytes => rfl

lemma fillBuffer_eq (ready : Bytes → Bool) (r : Reader E) :
    r.fillBuffer ready = awaitBuffer ready r.buffer r.unread := by
  fun_induction fillBuffer ready r with
  | case1 r hready => rw [awaitBuffer_eq_readChunk, if_pos hready]
  | case2 r hready code r' hread => rw [awaitBuffer_eq_readChunk, if_neg hready, hread]
  | case3 r hready r' hread => rw [awaitBuffer_eq_readChunk, if_neg hready, hread]
  | case4 r hready r' n hread ih => rw [awaitBuffer_eq_readChunk, if_neg hready, hread, ih]

def readMessage (r : Reader E) : ReadResult E × Reader E :=
  match _hready : r.fillBuffer fun buffered => (headerBlockLength buffered).isSome with
  | (some result, r') => (result, r')
  | (none, r') =>
    match _hlength : headerBlockLength r'.buffer with
    | none => (.nullopt, r')
    | some headerBytes =>
      if isIgnorableHeaderBlock (r'.buffer.take headerBytes) then (r'.consume headerBytes).readMessage
      else
        match parseContentLength (r'.buffer.take headerBytes) with
        | none => (.nullopt, r'.consume headerBytes)
        | some contentLength =>
          match (r'.consume headerBytes).fillBuffer fun buffered => contentLength ≤ buffered.length with
          | (some result, r'') => (result, r'')
          | (none, r'') => (.message (r''.buffer.take contentLength), r''.consume contentLength)
termination_by r.remaining
decreasing_by
  rw [fillBuffer_eq] at _hready
  have hle := remaining_awaitBuffer (fun buffered => (headerBlockLength buffered).isSome) r.buffer r.unread
  rw [_hready] at hle
  have hlen := headerBlockLength_le _hlength
  simp only [headerBlockLength, Option.map_eq_some_iff] at _hlength
  obtain ⟨i, -, rfl⟩ := _hlength
  simp only [remaining, consume, List.length_drop] at hle ⊢
  omega

lemma readMessageBlocking_eq (r : Reader E) :
    r.readMessageBlocking =
      match awaitBuffer (fun buffered => (headerBlockLength buffered).isSome) r.buffer r.unread with
      | (some result, r') => (result, r')
      | (none, r') =>
        match headerBlockLength r'.buffer with
        | none => (.nullopt, r')
        | some headerBytes =>
          if isIgnorableHeaderBlock (r'.buffer.take headerBytes) then (r'.consume headerBytes).readMessageBlocking
          else
            match parseContentLength (r'.buffer.take headerBytes) with
            | none => (.nullopt, r'.consume headerBytes)
            | some contentLength => (r'.consume headerBytes).readPayload contentLength := by
  rw [readMessageBlocking]
  split
  · next hready => rw [hready]
  · next r' hready =>
    rw [hready]
    dsimp only
    split
    · next hlength => rw [hlength]
    · next headerBytes hlength =>
      generalize headerBlockLength r'.buffer = length at hlength ⊢
      subst hlength
      rfl

lemma readMessage_eq (r : Reader E) : r.readMessage = r.readMessageBlocking := by
  fun_induction readMessage r with
  | case1 r result r' hready =>
    rw [fillBuffer_eq] at hready
    rw [readMessageBlocking_eq, hready]
  | case2 r r' hready hlength =>
    rw [fillBuffer_eq] at hready
    rw [readMessageBlocking_eq, hready]
    simp only [hlength]
  | case3 r r' hready headerBytes hlength hblank ih =>
    rw [fillBuffer_eq] at hready
    rw [ih, readMessageBlocking_eq r, hready]
    simp only [hlength, hblank, if_true]
  | case4 r r' hready headerBytes hlength hblank hparse =>
    rw [fillBuffer_eq] at hready
    rw [readMessageBlocking_eq, hready]
    simp only [hlength, hblank, hparse, if_false, Bool.false_eq_true]
  | case5 r r' hready headerBytes hlength hblank contentLength hparse result r'' hpayload =>
    rw [fillBuffer_eq] at hready hpayload
    rw [readMessageBlocking_eq, hready]
    simp only [hlength, hblank, hparse, if_false, Bool.false_eq_true, readPayload, hpayload]
  | case6 r r' hready headerBytes hlength hblank contentLength hparse r'' hpayload =>
    rw [fillBuffer_eq] at hready hpayload
    rw [readMessageBlocking_eq, hready]
    simp only [hlength, hblank, hparse, if_false, Bool.false_eq_true, readPayload, hpayload]

end Reader

inductive StreamEnd (E : Type)
  | zeroBytes
  | error (code : E)

namespace StreamEnd

variable {E : Type}

def event : StreamEnd E → ReadEvent E
  | zeroBytes => .data []
  | error code => .error code

def result : StreamEnd E → ReadResult E
  | zeroBytes => .nullopt
  | error code => .thrown code

end StreamEnd

inductive Reads {E : Type} (read : Reader E → ReadResult E × Reader E) : Reader E → List (ReadResult E) → Prop
  | message {r r' : Reader E} {payload : Bytes} {results : List (ReadResult E)}
      (hread : read r = (.message payload, r')) (hrest : Reads read r' results) :
      Reads read r (.message payload :: results)
  | stop {r r' : Reader E} {result : ReadResult E} (hread : read r = (result, r'))
      (hstop : ∀ payload, result ≠ .message payload) : Reads read r [result]

inductive Stop
  | header
  | stream
deriving DecidableEq

def Stop.result {E : Type} (atEnd : StreamEnd E) : Stop → ReadResult E
  | header => .nullopt
  | stream => atEnd.result

/-- The payloads in a stream, from the stream as a whole. -/
def streamMessages (stream : Bytes) : List Bytes × Stop :=
  match _hlength : headerBlockLength stream with
  | none => ([], .stream)
  | some headerBytes =>
    if isIgnorableHeaderBlock (stream.take headerBytes) then streamMessages (stream.drop headerBytes)
    else
      match parseContentLength (stream.take headerBytes) with
      | none => ([], .header)
      | some contentLength =>
        if (stream.drop headerBytes).length < contentLength then ([], .stream)
        else
          ((stream.drop headerBytes).take contentLength ::
              (streamMessages ((stream.drop headerBytes).drop contentLength)).1,
            (streamMessages ((stream.drop headerBytes).drop contentLength)).2)
termination_by stream.length
decreasing_by
  all_goals
    have hlen := Reader.headerBlockLength_le _hlength
    simp only [headerBlockLength, Option.map_eq_some_iff] at _hlength
    obtain ⟨i, -, rfl⟩ := _hlength
    simp only [List.length_drop]
    omega

section Streams

variable {E : Type} {stream : Bytes} {atEnd : StreamEnd E} {r r' : Reader E}

structure Arrives (r : Reader E) (stream : Bytes) (atEnd : StreamEnd E) (chunks : List Bytes) : Prop where
  unread : r.unread = chunks.map .data ++ [atEnd.event]
  nonempty : ∀ chunk ∈ chunks, chunk.length ≠ 0
  eq_stream : r.buffer ++ chunks.flatten = stream

lemma awaitBuffer_arrives (ready : Bytes → Bool) {chunks : List Bytes} (h : Arrives r stream atEnd chunks) :
    (∃ r' rest, Reader.awaitBuffer ready r.buffer r.unread = (none, r') ∧ ready r'.buffer ∧
      Arrives r' stream atEnd rest) ∨
    (¬ ready stream ∧ ∃ r', Reader.awaitBuffer ready r.buffer r.unread = (some atEnd.result, r')) := by
  obtain ⟨buffer, unread⟩ := r
  obtain ⟨hunread, hchunks, hstream⟩ := h
  dsimp only at hunread hstream ⊢
  subst hunread
  induction chunks generalizing buffer with
  | nil =>
    rw [List.flatten_nil, List.append_nil] at hstream
    subst hstream
    rw [List.map_nil, List.nil_append]
    by_cases hready : ready buffer = true
    · refine .inl ⟨⟨buffer, [atEnd.event]⟩, [], ?_, hready, rfl, hchunks, List.append_nil _⟩
      cases atEnd <;> exact if_pos hready
    · refine .inr ⟨hready, ⟨buffer, []⟩, ?_⟩
      cases atEnd with
      | zeroBytes =>
        rw [StreamEnd.event, Reader.awaitBuffer, if_neg hready]
        rfl
      | error code =>
        rw [StreamEnd.event, Reader.awaitBuffer, if_neg hready]
        rfl
  | cons chunk chunks ih =>
    rw [List.map_cons, List.cons_append, Reader.awaitBuffer]
    split_ifs with hready hempty
    · exact .inl ⟨_, chunk :: chunks, rfl, hready, rfl, hchunks, hstream⟩
    · exact absurd hempty (hchunks chunk List.mem_cons_self)
    · rw [List.forall_mem_cons] at hchunks
      rw [List.flatten_cons, ← List.append_assoc] at hstream
      exact ih (buffer ++ chunk) hchunks.2 hstream

lemma Arrives.consume {chunks : List Bytes} (h : Arrives r stream atEnd chunks)
    {n : ℕ} (hn : n ≤ r.buffer.length) :
    Arrives (r.consume n) (stream.drop n) atEnd chunks where
  unread := h.unread
  nonempty := h.nonempty
  eq_stream := by
    rw [← h.eq_stream, List.drop_append_of_le_length hn]
    rfl

lemma Arrives.take_eq {chunks : List Bytes} (h : Arrives r stream atEnd chunks)
    {n : ℕ} (hn : n ≤ r.buffer.length) :
    r.buffer.take n = stream.take n := by
  rw [← h.eq_stream, List.take_append_of_le_length hn]

lemma Arrives.header {chunks : List Bytes} (h : Arrives r stream atEnd chunks) {n : ℕ}
    (hn : headerBlockLength r.buffer = some n) : headerBlockLength stream = some n := by
  rw [← h.eq_stream]
  exact Reader.headerBlockLength_append _ hn

lemma readMessageBlocking_of_no_header {chunks : List Bytes} (h : Arrives r stream atEnd chunks)
    (hn : headerBlockLength stream = none) : ∃ r', r.readMessageBlocking = (atEnd.result, r') := by
  rcases awaitBuffer_arrives (fun buffered => (headerBlockLength buffered).isSome) h with
    ⟨r', rest, -, hready, harrives⟩ | ⟨-, r', hawait⟩
  · obtain ⟨m, hm⟩ := Option.isSome_iff_exists.mp hready
    rw [harrives.header hm] at hn
    cases hn
  · refine ⟨r', ?_⟩
    rw [Reader.readMessageBlocking_eq, hawait]

lemma readMessageBlocking_of_header {chunks : List Bytes} (h : Arrives r stream atEnd chunks) {n : ℕ}
    (hn : headerBlockLength stream = some n) :
    ∃ r' rest, Arrives r' (stream.drop n) atEnd rest ∧
      r.readMessageBlocking =
        if isIgnorableHeaderBlock (stream.take n) then r'.readMessageBlocking
        else
          match parseContentLength (stream.take n) with
          | none => (.nullopt, r')
          | some contentLength => r'.readPayload contentLength := by
  rcases awaitBuffer_arrives (fun buffered => (headerBlockLength buffered).isSome) h with
    ⟨r', rest, hawait, hready, harrives⟩ | ⟨hready, -⟩
  · obtain ⟨m, hm⟩ := Option.isSome_iff_exists.mp hready
    obtain rfl : m = n := Option.some.inj ((harrives.header hm).symm.trans hn)
    have hle := Reader.headerBlockLength_le hm
    refine ⟨r'.consume m, rest, harrives.consume hle, ?_⟩
    rw [Reader.readMessageBlocking_eq, hawait]
    simp only [hm, harrives.take_eq hle]
  · rw [hn] at hready
    exact absurd rfl hready

lemma readPayload_of_le {chunks : List Bytes} (h : Arrives r stream atEnd chunks)
    {n : ℕ} (hn : n ≤ stream.length) :
    ∃ r' rest, r.readPayload n = (.message (stream.take n), r') ∧ Arrives r' (stream.drop n) atEnd rest := by
  rcases awaitBuffer_arrives (fun buffered => n ≤ buffered.length) h with
    ⟨r', rest, hawait, hready, harrives⟩ | ⟨hready, -⟩
  · have hle := of_decide_eq_true hready
    refine ⟨r'.consume n, rest, ?_, harrives.consume hle⟩
    rw [Reader.readPayload, hawait]
    simp only [harrives.take_eq hle]
  · exact absurd (decide_eq_true hn) hready

lemma readPayload_of_lt {chunks : List Bytes} (h : Arrives r stream atEnd chunks)
    {n : ℕ} (hn : stream.length < n) :
    ∃ r', r.readPayload n = (atEnd.result, r') := by
  rcases awaitBuffer_arrives (fun buffered => n ≤ buffered.length) h with
    ⟨r', rest, -, hready, harrives⟩ | ⟨-, r', hawait⟩
  · have hle := of_decide_eq_true hready
    have hlength := congrArg List.length harrives.eq_stream
    rw [List.length_append] at hlength
    omega
  · refine ⟨r', ?_⟩
    rw [Reader.readPayload, hawait]

lemma result_ne_message (payload : Bytes) : atEnd.result ≠ .message payload := by
  cases atEnd <;> exact nofun

lemma Reads.congr {read : Reader E → ReadResult E × Reader E} {results : List (ReadResult E)}
    (heq : read r = read r') (h : Reads read r' results) : Reads read r results := by
  cases h with
  | message hread hrest => exact .message (heq.trans hread) hrest
  | stop hread hstop => exact .stop (heq.trans hread) hstop

lemma Reads.unique {read : Reader E → ReadResult E × Reader E} {results results' : List (ReadResult E)}
    (h : Reads read r results) (h' : Reads read r results') : results = results' := by
  induction h generalizing results' with
  | message hread hrest ih =>
    cases h' with
    | message hread' hrest' =>
      rw [hread] at hread'
      cases hread'
      rw [ih hrest']
    | stop hread' hstop' =>
      rw [hread] at hread'
      cases hread'
      exact absurd rfl (hstop' _)
  | stop hread hstop =>
    cases h' with
    | message hread' hrest' =>
      rw [hread] at hread'
      cases hread'
      exact absurd rfl (hstop _)
    | stop hread' hstop' =>
      rw [hread] at hread'
      cases hread'
      rfl

lemma reads_stream (atEnd : StreamEnd E) (stream : Bytes) {chunks : List Bytes}
    (h : Arrives r stream atEnd chunks) :
    Reads Reader.readMessageBlocking r
      ((streamMessages stream).1.map .message ++ [(streamMessages stream).2.result atEnd]) := by
  fun_induction streamMessages stream generalizing r chunks with
  | case1 stream hlength =>
    obtain ⟨r', hread⟩ := readMessageBlocking_of_no_header h hlength
    exact .stop hread result_ne_message
  | case2 stream headerBytes hlength hblank ih =>
    obtain ⟨r', rest, harrives, hread⟩ := readMessageBlocking_of_header h hlength
    rw [if_pos hblank] at hread
    exact .congr hread (ih harrives)
  | case3 stream headerBytes hlength hblank hparse =>
    obtain ⟨r', rest, harrives, hread⟩ := readMessageBlocking_of_header h hlength
    rw [if_neg hblank, hparse] at hread
    exact .stop hread nofun
  | case4 stream headerBytes hlength hblank contentLength hparse hlt =>
    obtain ⟨r', rest, harrives, hread⟩ := readMessageBlocking_of_header h hlength
    rw [if_neg hblank, hparse] at hread
    obtain ⟨r'', hpayload⟩ := readPayload_of_lt harrives hlt
    exact .stop (hread.trans hpayload) result_ne_message
  | case5 stream headerBytes hlength hblank contentLength hparse hge ih =>
    obtain ⟨r', rest, harrives, hread⟩ := readMessageBlocking_of_header h hlength
    rw [if_neg hblank, hparse] at hread
    obtain ⟨r'', rest', hpayload, harrives'⟩ := readPayload_of_le harrives (not_lt.mp hge)
    exact .message (hread.trans hpayload) (ih harrives')

end Streams

section Chunkings

variable {E : Type}

/-- The bytes of the stream in reads of 1 to 4096 bytes, and the read at its end. -/
structure Chunking (stream : Bytes) (chunks : List Bytes) : Prop where
  flatten : chunks.flatten = stream
  bounds : ∀ chunk ∈ chunks, 1 ≤ chunk.length ∧ chunk.length ≤ 4096

def readerOf (atEnd : StreamEnd E) (chunks : List Bytes) : Reader E :=
  { unread := chunks.map .data ++ [atEnd.event] }

inductive StopsAtHeader : Bytes → Prop
  | header {stream : Bytes} {headerBytes : ℕ} (hlength : headerBlockLength stream = some headerBytes)
      (hblank : ¬ isIgnorableHeaderBlock (stream.take headerBytes))
      (hparse : parseContentLength (stream.take headerBytes) = none) : StopsAtHeader stream
  | blank {stream : Bytes} {headerBytes : ℕ} (hlength : headerBlockLength stream = some headerBytes)
      (hblank : isIgnorableHeaderBlock (stream.take headerBytes))
      (hrest : StopsAtHeader (stream.drop headerBytes)) : StopsAtHeader stream
  | message {stream : Bytes} {headerBytes contentLength : ℕ}
      (hlength : headerBlockLength stream = some headerBytes)
      (hblank : ¬ isIgnorableHeaderBlock (stream.take headerBytes))
      (hparse : parseContentLength (stream.take headerBytes) = some contentLength)
      (hpayload : contentLength ≤ (stream.drop headerBytes).length)
      (hrest : StopsAtHeader ((stream.drop headerBytes).drop contentLength)) : StopsAtHeader stream

def ReadsAlike (atEnd : StreamEnd E) (stream : Bytes) : Prop :=
  ∃ results, ∀ chunks, Chunking stream chunks →
    Reads Reader.readMessageBlocking (readerOf (E := E) .zeroBytes chunks) results ∧
    Reads Reader.readMessage (readerOf atEnd chunks) results

lemma streamMessages_of_header {stream : Bytes} {headerBytes : ℕ}
    (hlength : headerBlockLength stream = some headerBytes) :
    streamMessages stream =
      if isIgnorableHeaderBlock (stream.take headerBytes) then streamMessages (stream.drop headerBytes)
      else
        match parseContentLength (stream.take headerBytes) with
        | none => ([], .header)
        | some contentLength =>
          if (stream.drop headerBytes).length < contentLength then ([], .stream)
          else
            ((stream.drop headerBytes).take contentLength ::
                (streamMessages ((stream.drop headerBytes).drop contentLength)).1,
              (streamMessages ((stream.drop headerBytes).drop contentLength)).2) := by
  rw [streamMessages]
  split
  · next hnone =>
    rw [hnone] at hlength
    cases hlength
  · next headerBytes' hlength' =>
    obtain rfl : headerBytes' = headerBytes := Option.some.inj (hlength'.symm.trans hlength)
    rfl

lemma stopsAtHeader_iff (stream : Bytes) : StopsAtHeader stream ↔ (streamMessages stream).2 = .header := by
  constructor
  · intro h
    induction h with
    | header hlength hblank hparse => rw [streamMessages_of_header hlength, if_neg hblank, hparse]
    | blank hlength hblank _ ih => rw [streamMessages_of_header hlength, if_pos hblank, ih]
    | message hlength hblank hparse hpayload _ ih =>
      rw [streamMessages_of_header hlength, if_neg hblank, hparse]
      simp only [if_neg (not_lt.mpr hpayload), ih]
  · intro h
    fun_induction streamMessages stream with
    | case1 stream hlength => cases h
    | case2 stream headerBytes hlength hblank ih => exact .blank hlength hblank (ih h)
    | case3 stream headerBytes hlength hblank hparse => exact .header hlength hblank hparse
    | case4 => cases h
    | case5 stream headerBytes hlength hblank contentLength hparse hge ih =>
      exact .message hlength hblank hparse (not_lt.mp hge) (ih h)

lemma Chunking.arrives {stream : Bytes} {chunks : List Bytes} (h : Chunking stream chunks) (atEnd : StreamEnd E) :
    Arrives (readerOf atEnd chunks) stream atEnd chunks where
  unread := rfl
  nonempty chunk hmem := Nat.one_le_iff_ne_zero.mp (h.bounds chunk hmem).1
  eq_stream := h.flatten

lemma exists_chunking (stream : Bytes) : ∃ chunks, Chunking stream chunks := by
  refine ⟨stream.map fun byte => [byte], ?_, ?_⟩
  · rw [← List.flatMap_def, List.flatMap_singleton']
  · intro chunk hmem
    obtain ⟨byte, -, rfl⟩ := List.mem_map.mp hmem
    exact ⟨le_rfl, (by decide : 1 ≤ 4096)⟩

lemma reads_blocking {stream : Bytes} {chunks : List Bytes} (h : Chunking stream chunks) :
    Reads Reader.readMessageBlocking (readerOf (E := E) .zeroBytes chunks)
      ((streamMessages stream).1.map .message ++ [.nullopt]) := by
  have hreads := reads_stream _ stream (h.arrives (E := E) .zeroBytes)
  cases hstop : (streamMessages stream).2 <;> rw [hstop] at hreads <;> exact hreads

lemma reads_coroutine {stream : Bytes} {chunks : List Bytes} (h : Chunking stream chunks) (atEnd : StreamEnd E) :
    Reads Reader.readMessage (readerOf atEnd chunks)
      ((streamMessages stream).1.map .message ++ [(streamMessages stream).2.result atEnd]) := by
  have hread : (Reader.readMessage : Reader E → _) = Reader.readMessageBlocking := funext Reader.readMessage_eq
  rw [hread]
  exact reads_stream _ stream (h.arrives atEnd)

/-- The blocking reader gives the same results for every way of cutting a stream and ends with
the first `nullopt`. The coroutine gives them too, unless the stream ends in an error and lasts
until then. -/
theorem reads_alike_iff (atEnd : StreamEnd E) (stream : Bytes) :
    (∃ payloads : List Bytes, ∀ chunks, Chunking stream chunks →
      Reads Reader.readMessageBlocking (readerOf (E := E) .zeroBytes chunks) (payloads.map .message ++ [.nullopt])) ∧
    (ReadsAlike atEnd stream ↔ atEnd = .zeroBytes ∨ StopsAtHeader stream) := by
  refine ⟨⟨_, fun chunks h => reads_blocking h⟩, ?_⟩
  rw [stopsAtHeader_iff]
  constructor
  · rintro ⟨results, hresults⟩
    obtain ⟨chunks, hchunks⟩ := exists_chunking stream
    obtain ⟨hblocking, hcoroutine⟩ := hresults chunks hchunks
    have heq := ((reads_blocking hchunks).unique hblocking).trans
      (hcoroutine.unique (reads_coroutine hchunks atEnd))
    rw [List.append_cancel_left_eq, List.singleton_inj] at heq
    cases hstop : (streamMessages stream).2 with
    | header => exact .inr rfl
    | stream =>
      rw [hstop] at heq
      cases atEnd with
      | zeroBytes => exact .inl rfl
      | error code => cases heq
  · intro h
    refine ⟨(streamMessages stream).1.map .message ++ [.nullopt], fun chunks hchunks => ?_⟩
    refine ⟨reads_blocking hchunks, ?_⟩
    have hresult : (streamMessages stream).2.result atEnd = .nullopt := by
      rcases h with rfl | hstop
      · cases (streamMessages stream).2 <;> rfl
      · rw [hstop]
        rfl
    rw [← hresult]
    exact reads_coroutine hchunks atEnd

theorem not_readsAlike_closed_stream : ¬ ReadsAlike (StreamEnd.error ()) [] := by
  rintro ⟨results, hresults⟩
  have hchunks : Chunking [] [] := ⟨rfl, by decide⟩
  obtain ⟨hblocking, hcoroutine⟩ := hresults [] hchunks
  have heq := ((reads_blocking hchunks).unique hblocking).trans
    (hcoroutine.unique (reads_coroutine hchunks (.error ())))
  have hstop : streamMessages [] = ([], .stream) := by
    rw [streamMessages]
    rfl
  rw [hstop] at heq
  cases heq

end Chunkings

end DltxtBridge.Protocol
