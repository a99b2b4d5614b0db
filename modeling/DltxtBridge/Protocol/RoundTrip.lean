import DltxtBridge.Protocol.Framing
import Mathlib.Data.List.TakeWhile
import Mathlib.Data.Nat.Digits.Lemmas

namespace DltxtBridge.Protocol

section Decimal

lemma toNat_digit {d : ℕ} (h : d < 10) : (48 + d).toUInt8.toNat = 48 + d := by
  rw [Nat.toUInt8, UInt8.toNat_ofNat']
  omega

lemma isDigit_of_mem_decimal {n : ℕ} {ch : UInt8} (h : ch ∈ decimal n) :
    48 ≤ ch.toNat ∧ ch.toNat ≤ 57 := by
  rw [decimal] at h
  split_ifs at h with hn
  · rw [List.mem_singleton.mp h]
    decide
  · obtain ⟨d, hd, rfl⟩ := List.mem_map.mp h
    have hlt := Nat.digits_lt_base (by omega) (List.mem_reverse.mp hd)
    rw [toNat_digit hlt]
    omega

lemma decimal_ne_nil (n : ℕ) : decimal n ≠ [] := by
  rw [decimal]
  split_ifs with hn
  · simp
  · simp [Nat.digits_ne_nil_iff_ne_zero.mpr hn]

lemma digitsValue_reverse (digits : List ℕ) (h : ∀ d ∈ digits, d < 10) :
    digitsValue (digits.reverse.map fun digit => (48 + digit).toUInt8) = Nat.ofDigits 10 digits := by
  induction digits with
  | nil => rfl
  | cons d ds ih =>
    have hd := toNat_digit (h d List.mem_cons_self)
    have hds := ih fun e he => h e (List.mem_cons_of_mem d he)
    rw [digitsValue] at hds ⊢
    rw [List.reverse_cons, List.map_append, List.foldl_append, hds, List.map_singleton,
      List.foldl_cons, List.foldl_nil, hd, Nat.ofDigits_cons]
    omega

lemma digitsValue_decimal (n : ℕ) : digitsValue (decimal n) = n := by
  rw [decimal]
  split_ifs with hn
  · rw [hn]
    rfl
  · rw [digitsValue_reverse _ fun d hd => Nat.digits_lt_base (by omega) hd, Nat.ofDigits_digits]

lemma isDigit_decimal {n : ℕ} {ch : UInt8} (h : ch ∈ decimal n) : isDigit ch = true := by
  have hch := isDigit_of_mem_decimal h
  simp only [isDigit, Bool.and_eq_true, decide_eq_true_eq, UInt8.le_iff_toNat_le]
  exact hch

lemma ne_of_mem_decimal {n : ℕ} {ch : UInt8} (h : ch ∈ decimal n) (other : UInt8)
    (ho : other.toNat < 48) : ch ≠ other := by
  rintro rfl
  have := isDigit_of_mem_decimal h
  omega

lemma isSpace_decimal {n : ℕ} {ch : UInt8} (h : ch ∈ decimal n) : isSpace ch = false := by
  have hch := isDigit_of_mem_decimal h
  have hspace := ne_of_mem_decimal h 32 (by decide)
  simp only [isSpace, hspace, decide_false, Bool.false_or, Bool.and_eq_false_iff,
    decide_eq_false_iff_not, UInt8.le_iff_toNat_le]
  right
  change ¬ ch.toNat ≤ 13
  omega

lemma stoull_decimal {n : ℕ} (h : n < 2 ^ 64) : stoull (decimal n) = some n := by
  obtain ⟨first, rest, hd⟩ := List.exists_cons_of_ne_nil (decimal_ne_nil n)
  have hfirst : first ∈ decimal n := hd ▸ List.mem_cons_self
  have htrim : (decimal n).dropWhile isSpace = decimal n := by
    rw [hd, List.dropWhile_cons_of_neg (by simp [isSpace_decimal hfirst])]
  have hhead : (decimal n).head? = some first := by rw [hd]; rfl
  have hminus := ne_of_mem_decimal hfirst 45 (by decide)
  have hplus := ne_of_mem_decimal hfirst 43 (by decide)
  have hdigits : (decimal n).takeWhile isDigit = decimal n :=
    List.takeWhile_eq_self_iff.mpr fun ch hch => isDigit_decimal hch
  simp only [stoull, htrim, hhead, Option.some.injEq, hminus, hplus, or_self, if_false, hdigits,
    digitsValue_decimal, decimal_ne_nil, not_le.mpr h]

lemma parseLengthValue_decimal {n : ℕ} (h : n ≤ maxContentLength) :
    parseLengthValue (32 :: decimal n) = some n := by
  obtain ⟨first, rest, hd⟩ := List.exists_cons_of_ne_nil (decimal_ne_nil n)
  have hfirst : first ∈ decimal n := hd ▸ List.mem_cons_self
  have hspace := ne_of_mem_decimal hfirst 32 (by decide)
  have htab := ne_of_mem_decimal hfirst 9 (by decide)
  have hdrop : (32 :: decimal n).dropWhile (fun ch => ch = 32 || ch = 9) = first :: rest := by
    rw [List.dropWhile_cons_of_pos (by decide), hd, List.dropWhile_cons_of_neg (by simp [hspace, htab])]
  have hlt : n < 2 ^ 64 := h.trans_lt (by decide)
  rw [parseLengthValue, hdrop]
  simp only [← hd, stoull_decimal hlt]
  simp [h]

end Decimal

section Header

def lengthLine (n : ℕ) : Bytes := ascii "Content-Length: " ++ decimal n

lemma notMem_lengthLine (n : ℕ) : 13 ∉ lengthLine n := by
  rw [lengthLine, List.mem_append, not_or]
  refine ⟨by decide, fun h => ?_⟩
  exact ne_of_mem_decimal h 13 (by decide) rfl

lemma find_lengthLine (d : Bytes) (n : ℕ) (post : Bytes) :
    Delimiter.find (13 :: d) (lengthLine n ++ (13 :: d ++ post)) = some (lengthLine n).length :=
  Delimiter.find_of_notMem (lengthLine n) post (notMem_lengthLine n)

lemma find_blank_lengthLine (n : ℕ) (post : Bytes) :
    Delimiter.find (crlf ++ crlf) (crlf ++ (lengthLine n ++ (crlf ++ crlf ++ post))) =
      some ((lengthLine n).length + 2) := by
  obtain ⟨tail, htail⟩ : ∃ tail, lengthLine n ++ (crlf ++ crlf ++ post) = 67 :: tail :=
    ⟨_, rfl⟩
  have hfind := find_lengthLine [10, 13, 10] n post
  change Delimiter.find (crlf ++ crlf) (lengthLine n ++ (crlf ++ crlf ++ post)) = _ at hfind
  have hfirst : ¬ crlf ++ crlf <+: 13 :: 10 :: 67 :: tail := by simp [crlf]
  have hsecond : ¬ crlf ++ crlf <+: 10 :: 67 :: tail := by simp [crlf]
  rw [htail] at hfind ⊢
  change Delimiter.find (crlf ++ crlf) (13 :: 10 :: 67 :: tail) = _
  rw [Delimiter.find, if_neg hfirst, Delimiter.find, if_neg hsecond, hfind]
  rfl

lemma parseContentLength_lengthLine {n : ℕ} (h : n ≤ maxContentLength) (post : Bytes) :
    parseContentLength (lengthLine n ++ (crlf ++ post)) = some n := by
  have hfind : Delimiter.find crlf (lengthLine n ++ (crlf ++ post)) = some (lengthLine n).length :=
    find_lengthLine [10] n post
  have hne : lengthLine n ++ (crlf ++ post) ≠ [] := by simp [crlf]
  have hlower : (lengthLine n).map toLower = contentLengthKey ++ (32 :: (decimal n).map toLower) := by
    have hkey : (ascii "Content-Length: ").map toLower = contentLengthKey ++ [32] := by decide
    rw [lengthLine, List.map_append, hkey, List.append_assoc]
    rfl
  have hvalue : (lengthLine n).drop contentLengthKey.length = 32 :: decimal n := by
    have hkey : ascii "Content-Length: " = ascii "Content-Length:" ++ [32] := by decide
    have hlen : contentLengthKey.length = (ascii "Content-Length:").length := by decide
    rw [lengthLine, hkey, List.append_assoc, hlen, List.drop_left]
    rfl
  rw [parseContentLength, if_neg hne, hfind]
  simp only [Option.getD_some, List.take_left]
  rw [if_pos (hlower ▸ List.prefix_append _ _), hvalue]
  exact parseLengthValue_decimal h

lemma parseContentLength_crlf (headers : Bytes) :
    parseContentLength (crlf ++ headers) = parseContentLength headers := by
  have hfind : Delimiter.find crlf (crlf ++ headers) = some 0 :=
    Delimiter.find_of_notMem [] headers List.not_mem_nil
  have hne : crlf ++ headers ≠ [] := by simp [crlf]
  have hkey : ¬ contentLengthKey <+: ((crlf ++ headers).take ((Delimiter.find crlf
      (crlf ++ headers)).getD (crlf ++ headers).length)).map toLower := by
    rw [hfind]
    exact fun hp => absurd (List.prefix_nil.mp hp) (by decide)
  conv_lhs => rw [parseContentLength, if_neg hne, if_neg hkey, hfind]
  rfl

end Header

namespace Reader

variable {E : Type} {r : Reader E} {stream : Bytes}

structure Delivers (r : Reader E) (stream : Bytes) (chunks : List Bytes) : Prop where
  unread : r.unread = chunks.map .data
  nonempty : ∀ c ∈ chunks, 0 < c.length
  eq_stream : r.buffer ++ chunks.flatten = stream

lemma awaitBuffer_of_ready (ready : Bytes → Bool) (chunks : List Bytes) (buffer : Bytes)
    (hchunks : ∀ c ∈ chunks, 0 < c.length) (h : ready (buffer ++ chunks.flatten) = true) :
    ∃ r' rest, awaitBuffer (E := E) ready buffer (chunks.map .data) = (none, r') ∧
      ready r'.buffer = true ∧ r'.Delivers (buffer ++ chunks.flatten) rest := by
  induction chunks generalizing buffer with
  | nil =>
    rw [List.flatten_nil, List.append_nil] at h
    refine ⟨⟨buffer, []⟩, [], ?_, h, rfl, hchunks, rfl⟩
    rw [List.map_nil, awaitBuffer, if_pos h]
  | cons c chunks ih =>
    by_cases hr : ready buffer = true
    · refine ⟨⟨buffer, (c :: chunks).map .data⟩, c :: chunks, ?_, hr, rfl, hchunks, rfl⟩
      rw [List.map_cons, awaitBuffer, if_pos hr]
    · have hc : c.length ≠ 0 := (hchunks c List.mem_cons_self).ne'
      rw [List.flatten_cons, ← List.append_assoc] at h ⊢
      rw [List.map_cons, awaitBuffer, if_neg hr, if_neg hc]
      exact ih (buffer ++ c) (fun d hd => hchunks d (List.mem_cons_of_mem c hd)) h

lemma awaitBuffer_of_empty (ready : Bytes → Bool) {chunks : List Bytes}
    (h : r.Delivers [] chunks) (hready : ready [] = false) :
    awaitBuffer ready r.buffer r.unread = (some .nullopt, ⟨[], []⟩) := by
  obtain ⟨hbuffer, hflat⟩ := List.append_eq_nil_iff.mp h.eq_stream
  have hchunks : chunks = [] := by
    cases chunks with
    | nil => rfl
    | cons c chunks =>
      have hc := h.nonempty c List.mem_cons_self
      rw [List.flatten_cons, List.append_eq_nil_iff] at hflat
      simp [hflat.1] at hc
  rw [h.unread, hchunks, hbuffer, List.map_nil, awaitBuffer, hready]
  rfl

lemma Delivers.consume {chunks : List Bytes} (h : r.Delivers stream chunks) {n : ℕ}
    (hn : n ≤ r.buffer.length) : (r.consume n).Delivers (stream.drop n) chunks where
  unread := h.unread
  nonempty := h.nonempty
  eq_stream := by
    rw [← h.eq_stream, List.drop_append_of_le_length hn]
    rfl

lemma headerBlockLength_append {buffered : Bytes} {n : ℕ} (rest : Bytes)
    (h : headerBlockLength buffered = some n) : headerBlockLength (buffered ++ rest) = some n := by
  simp only [headerBlockLength, Option.map_eq_some_iff] at h ⊢
  obtain ⟨i, hi, rfl⟩ := h
  exact ⟨i, Delimiter.find_append rest hi, rfl⟩

lemma headerBlockLength_le {buffered : Bytes} {n : ℕ} (h : headerBlockLength buffered = some n) :
    n ≤ buffered.length := by
  simp only [headerBlockLength, Option.map_eq_some_iff] at h
  obtain ⟨i, hi, rfl⟩ := h
  exact Delimiter.find_add_length_le hi

lemma readMessageBlocking_header {chunks : List Bytes} (h : r.Delivers stream chunks) {n : ℕ}
    (hn : headerBlockLength stream = some n) :
    ∃ r' rest, r'.Delivers (stream.drop n) rest ∧
      r.readMessageBlocking =
        if isIgnorableHeaderBlock (stream.take n) then r'.readMessageBlocking
        else match parseContentLength (stream.take n) with
          | none => (.nullopt, r')
          | some contentLength => r'.readPayload contentLength := by
  have hready : (headerBlockLength (r.buffer ++ chunks.flatten)).isSome = true := by
    rw [h.eq_stream, hn]
    rfl
  obtain ⟨r₁, rest, hawait, hfull, hdeliver⟩ := awaitBuffer_of_ready (E := E)
    (fun buffered => (headerBlockLength buffered).isSome) chunks r.buffer h.nonempty hready
  rw [← h.unread] at hawait
  obtain ⟨m, hm⟩ := Option.isSome_iff_exists.mp hfull
  have hsplit := hdeliver.eq_stream.trans h.eq_stream
  have hmn : m = n := by
    have hlong := headerBlockLength_append rest.flatten hm
    rw [hsplit, hn] at hlong
    exact (Option.some.inj hlong).symm
  subst hmn
  have htake : r₁.buffer.take m = stream.take m := by
    rw [← hsplit, List.take_append_of_le_length (headerBlockLength_le hm)]
  refine ⟨r₁.consume m, rest, ?_, ?_⟩
  · rw [← h.eq_stream]
    exact hdeliver.consume (headerBlockLength_le hm)
  · rw [readMessageBlocking]
    split
    · rename_i result r' hmatch
      rw [hawait] at hmatch
      cases hmatch
    · rename_i r' hmatch
      rw [hawait, Prod.mk.injEq] at hmatch
      obtain ⟨-, rfl⟩ := hmatch
      split
      · rename_i hnone
        rw [hm] at hnone
        cases hnone
      · rename_i k hk
        rw [hm, Option.some.injEq] at hk
        subst hk
        exact congrArg (fun block =>
          if isIgnorableHeaderBlock block then (r₁.consume m).readMessageBlocking
          else
            match parseContentLength block with
            | none => (.nullopt, r₁.consume m)
            | some contentLength => (r₁.consume m).readPayload contentLength) htake

lemma readPayload_append {chunks : List Bytes} {payload rest : Bytes}
    (h : r.Delivers (payload ++ rest) chunks) :
    ∃ r' chunks', r.readPayload payload.length = (.message payload, r') ∧
      r'.Delivers rest chunks' := by
  have hready : decide (payload.length ≤ (r.buffer ++ chunks.flatten).length) = true := by
    rw [h.eq_stream, List.length_append]
    exact decide_eq_true (Nat.le_add_right _ _)
  obtain ⟨r₁, chunks', hawait, hfull, hdeliver⟩ := awaitBuffer_of_ready (E := E)
    (fun buffered => payload.length ≤ buffered.length) chunks r.buffer h.nonempty hready
  rw [← h.unread] at hawait
  rw [h.eq_stream] at hdeliver
  have hle : payload.length ≤ r₁.buffer.length := of_decide_eq_true hfull
  have htake : r₁.buffer.take payload.length = payload := by
    rw [← List.take_append_of_le_length hle, hdeliver.eq_stream, List.take_left]
  have hconsume := hdeliver.consume hle
  rw [List.drop_left] at hconsume
  refine ⟨r₁.consume payload.length, chunks', ?_, hconsume⟩
  rw [readPayload, hawait]
  simp only [htake]

section Frames

def blankLines (n : ℕ) : Bytes := (List.replicate n crlf).flatten

lemma frameMessage_eq (payload : Bytes) :
    frameMessage payload = lengthLine payload.length ++ (crlf ++ (crlf ++ payload)) := by
  simp only [frameMessage, lengthLine, List.append_assoc]

lemma readMessageBlocking_block {chunks : List Bytes} {block payload rest : Bytes}
    (h : r.Delivers (block ++ (payload ++ rest)) chunks)
    (hlength : headerBlockLength (block ++ (payload ++ rest)) = some block.length)
    (hkey : isIgnorableHeaderBlock block = false)
    (hparse : parseContentLength block = some payload.length) :
    ∃ r' chunks', r.readMessageBlocking = (.message payload, r') ∧ r'.Delivers rest chunks' := by
  obtain ⟨r₁, chunks₁, hdeliver, hread⟩ := readMessageBlocking_header h hlength
  rw [List.drop_left] at hdeliver
  rw [List.take_left, hkey, hparse] at hread
  obtain ⟨r', chunks', hpayload, hrest⟩ := readPayload_append hdeliver
  exact ⟨r', chunks', hread.trans hpayload, hrest⟩

lemma isIgnorable_lengthLine (pre post : Bytes) (n : ℕ) :
    isIgnorableHeaderBlock (pre ++ (lengthLine n ++ post)) = false := by
  have hkey : ascii "Content-Length: " = 67 :: ascii "ontent-Length: " := by decide
  have hmem : (67 : UInt8) ∈ pre ++ (lengthLine n ++ post) := by
    simp only [lengthLine, hkey, List.mem_append, List.mem_cons, true_or, or_true]
  rw [isIgnorableHeaderBlock, Bool.and_eq_false_iff]
  right
  rw [List.all_eq_false]
  exact ⟨67, hmem, by decide⟩

lemma readMessageBlocking_frame {chunks : List Bytes} {payload rest : Bytes}
    (hsize : payload.length ≤ maxContentLength)
    (h : r.Delivers (frameMessage payload ++ rest) chunks) :
    ∃ r' chunks', r.readMessageBlocking = (.message payload, r') ∧ r'.Delivers rest chunks' := by
  have hstream : frameMessage payload ++ rest =
      (lengthLine payload.length ++ (crlf ++ crlf)) ++ (payload ++ rest) := by
    simp only [frameMessage_eq, List.append_assoc]
  rw [hstream] at h
  apply readMessageBlocking_block h
  · rw [List.append_assoc, headerBlockLength,
      show crlf ++ crlf = 13 :: [10, 13, 10] from rfl, find_lengthLine]
    simp
  · exact isIgnorable_lengthLine [] _ _
  · exact parseContentLength_lengthLine hsize crlf

lemma readMessageBlocking_blank_frame {chunks : List Bytes} {payload rest : Bytes}
    (hsize : payload.length ≤ maxContentLength)
    (h : r.Delivers (crlf ++ (frameMessage payload ++ rest)) chunks) :
    ∃ r' chunks', r.readMessageBlocking = (.message payload, r') ∧ r'.Delivers rest chunks' := by
  have hstream : crlf ++ (frameMessage payload ++ rest) =
      (crlf ++ (lengthLine payload.length ++ (crlf ++ crlf))) ++ (payload ++ rest) := by
    simp only [frameMessage_eq, List.append_assoc]
  rw [hstream] at h
  apply readMessageBlocking_block h
  · rw [headerBlockLength, List.append_assoc, List.append_assoc, find_blank_lengthLine]
    simp [crlf]
  · exact isIgnorable_lengthLine crlf _ _
  · rw [parseContentLength_crlf]
    exact parseContentLength_lengthLine hsize crlf

lemma readMessageBlocking_blankLines {chunks : List Bytes} {payload rest : Bytes} (n : ℕ)
    (hsize : payload.length ≤ maxContentLength)
    (h : r.Delivers (blankLines n ++ (frameMessage payload ++ rest)) chunks) :
    ∃ r' chunks', r.readMessageBlocking = (.message payload, r') ∧ r'.Delivers rest chunks' := by
  induction n using Nat.twoStepInduction generalizing r chunks with
  | zero => exact readMessageBlocking_frame hsize h
  | one => exact readMessageBlocking_blank_frame hsize h
  | more n ih _ =>
    -- two blank lines are a header block of their own, which the reader drops
    have hstream : blankLines (n + 2) ++ (frameMessage payload ++ rest) =
        (crlf ++ crlf) ++ (blankLines n ++ (frameMessage payload ++ rest)) := by
      simp only [blankLines, List.replicate_succ, List.flatten_cons, List.append_assoc]
    have hlength : headerBlockLength ((crlf ++ crlf) ++
        (blankLines n ++ (frameMessage payload ++ rest))) = some (crlf ++ crlf).length := by
      have hfind := Delimiter.find_of_notMem (d := [10, 13, 10]) []
        (blankLines n ++ (frameMessage payload ++ rest)) (List.not_mem_nil (a := (13 : UInt8)))
      change Delimiter.find (crlf ++ crlf) ((crlf ++ crlf) ++ _) = _ at hfind
      rw [headerBlockLength, hfind]
      rfl
    rw [hstream] at h
    obtain ⟨r₁, chunks₁, hdeliver, hread⟩ := readMessageBlocking_header h hlength
    rw [List.drop_left] at hdeliver
    rw [List.take_left, if_pos (by decide)] at hread
    rw [hread]
    exact ih hdeliver

lemma readMessages_deliver (frames : List (ℕ × Bytes))
    (hsize : ∀ frame ∈ frames, frame.2.length ≤ maxContentLength) {chunks : List Bytes}
    (h : r.Delivers (frames.flatMap fun frame => blankLines frame.1 ++ frameMessage frame.2) chunks) :
    readMessages (frames.length + 1) r =
      frames.map (fun frame => .message frame.2) ++ [.nullopt] := by
  induction frames generalizing r chunks with
  | nil =>
    have hend := awaitBuffer_of_empty
      (fun buffered => (headerBlockLength buffered).isSome) h rfl
    have hread : r.readMessageBlocking = (.nullopt, ⟨[], []⟩) := by
      rw [readMessageBlocking]
      split
      · rename_i result r' hmatch
        rw [hend, Prod.mk.injEq, Option.some.injEq] at hmatch
        rw [hmatch.1, hmatch.2]
      · rename_i r' hmatch
        rw [hend] at hmatch
        cases hmatch
    simp only [List.length_nil, readMessages, hread, List.map_nil, List.nil_append]
  | cons frame frames ih =>
    rw [List.flatMap_cons, List.append_assoc] at h
    obtain ⟨r', chunks', hread, hrest⟩ := readMessageBlocking_blankLines frame.1
      (hsize frame List.mem_cons_self) h
    have htail := ih (fun other ho => hsize other (List.mem_cons_of_mem frame ho)) hrest
    rw [List.length_cons, readMessages, hread, htail, List.map_cons, List.cons_append]

end Frames

theorem readMessages_frames (E : Type) (frames : List (ℕ × Bytes))
    (hsize : ∀ frame ∈ frames, frame.2.length ≤ maxContentLength) (chunks : List Bytes)
    (hchunks : ∀ c ∈ chunks, 0 < c.length)
    (hcut : chunks.flatten =
      frames.flatMap fun frame => blankLines frame.1 ++ frameMessage frame.2) :
    readMessages (E := E) (frames.length + 1) { unread := chunks.map .data } =
      frames.map (fun frame => .message frame.2) ++ [.nullopt] :=
  readMessages_deliver frames hsize ⟨rfl, hchunks, hcut⟩

theorem readMessages_frames_split :
    readMessages (E := Unit) 3
        { unread := [ascii "Content-Length: 2\r", ascii "\n\r\n\x7b", ascii "\x7d\r\nContent-Le",
            ascii "ngth: 4\r\n\r\n\r\n\r", ascii "\n"].map .data } =
      [.message (ascii "\x7b\x7d"), .message (ascii "\r\n\r\n"), .nullopt] :=
  readMessages_frames Unit [(0, ascii "\x7b\x7d"), (1, ascii "\r\n\r\n")] (by decide) _ (by decide)
    (by decide)

end Reader

end DltxtBridge.Protocol
