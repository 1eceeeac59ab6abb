import SimpleSftpd.Core.Ledger

/-! compression.cpp: `ZlibStream`, over the streams of zlib. -/

namespace SimpleSftpd

open Cxx

inductive ZCode
  | ok | streamEnd | needDict | streamError | dataError | memError | bufError | versionError
  deriving DecidableEq

structure ZCall (σ : Type) where
  ret : ZCode
  stream : σ
  consumed : ℕ
  output : Str

/-- A `z_stream` that is set up, and its coder: a call gets the input, whether it is the end (`Z_FINISH`),
and the room for output. -/
structure ZStream where
  State : Type
  init : State
  call : State → Str → Bool → ℕ → ZCall State

def outputRoom : ℕ := 16384

namespace ZStream

variable (z : ZStream)

/-- The loop of `process`; `none` while `fuel` rounds are not enough. -/
def processLoop (finish : Bool) : ℕ → z.State → Str → Str → Option (Bool × z.State × Str)
  | 0, _, _, _ => none
  | fuel + 1, q, input, output =>
    let r := z.call q input finish outputRoom
    if r.ret = .streamError ∨ r.ret = .dataError ∨ r.ret = .memError then some (false, r.stream, output)
    else
      let output := output ++ r.output
      let rest := input.drop r.consumed
      let avail_out := outputRoom - r.output.length
      let result := some (decide (r.ret = .ok ∨ r.ret = .streamEnd ∨ r.ret = .bufError), r.stream, output)
      if r.ret = .streamEnd then result
      else if r.ret = .bufError ∧ rest = [] ∧ finish = false then result
      else if avail_out = 0 ∨ finish = true ∧ r.ret ≠ .streamEnd then processLoop finish fuel r.stream rest output
      else result

def process (fuel : ℕ) (q : z.State) (input : Str) (finish : Bool) : Option (Bool × z.State × Str) :=
  z.processLoop finish fuel q (input.take (input.length % 2 ^ 32)) []

def after (fuel : ℕ) (made : List (Str × Bool)) : Option z.State :=
  made.foldlM (fun q c => (z.process fuel q c.1 c.2).map (·.2.1)) z.init

def last (fuel : ℕ) (made : List (Str × Bool)) : Option (Bool × Str) := match made.getLast? with
  | some c => (z.after fuel made.dropLast).bind fun q => (z.process fuel q c.1 c.2).map fun r => (r.1, r.2.2)
  | none => some (true, [])

end ZStream

def Zlib.ofStreams (fuel : ℕ) (d i : ZStream) : Zlib where
  deflate made := match d.last fuel made with
    | some (true, output) => some output
    | _ => none
  inflate made := match i.last fuel made with
    | some (true, output) => .ok output
    | some (false, _) => .failed
    | none => .hangs

namespace ZStream

variable {d i : ZStream}

/-- A stream that compresses: what it has taken, what it has made, and whether the end was announced to
it, after which it gets no more input. -/
inductive Deflating (d : ZStream) : d.State → Str → Str → Bool → Prop
  | init : Deflating d d.init [] [] false
  | feed {q : d.State} {taken made : Str} (h : Deflating d q taken made false) (input : Str) {room : ℕ}
    (hroom : 0 < room) :
    Deflating d (d.call q input false room).stream (taken ++ input.take (d.call q input false room).consumed)
      (made ++ (d.call q input false room).output) false
  | finish {q : d.State} {taken made : Str} {finishing : Bool} (h : Deflating d q taken made finishing) {room : ℕ}
    (hroom : 0 < room) (hret : (d.call q [] true room).ret ≠ .streamEnd) :
    Deflating d (d.call q [] true room).stream taken (made ++ (d.call q [] true room).output) true

def Deflated (d : ZStream) (taken made : Str) : Prop :=
  ∃ q made' finishing room, d.Deflating q taken made' finishing ∧ 0 < room ∧
  (d.call q [] true room).ret = .streamEnd ∧ made = made' ++ (d.call q [] true room).output

/-- What zlib says of `deflate`: it goes on until the input is used up or the output is full; told of the end,
until the stream is complete or the output is full; and the output is bounded by the input. -/
structure Deflates (d : ZStream) (bound : ℕ → ℕ) : Prop where
  feed_ret {q : d.State} {taken made : Str} (h : d.Deflating q taken made false) (input : Str) {room : ℕ}
    (hroom : 0 < room) :
    (d.call q input false room).ret = .ok ∨ (d.call q input false room).ret = .bufError
  feed_stops {q : d.State} {taken made : Str} (h : d.Deflating q taken made false) (input : Str) {room : ℕ}
    (hroom : 0 < room) :
    input.drop (d.call q input false room).consumed = [] ∨ (d.call q input false room).output.length = room
  finish_ret {q : d.State} {taken made : Str} {finishing : Bool} (h :
    d.Deflating q taken made finishing) {room : ℕ}
    (hroom : 0 < room) : (d.call q [] true room).ret = .streamEnd ∨ ((d.call q [] true room).ret = .ok ∨
      (d.call q [] true room).ret = .bufError) ∧ (d.call q [] true room).output.length = room
  bounded {q : d.State} {taken made : Str} {finishing : Bool} (h : d.Deflating q taken made finishing) :
    made.length ≤ bound taken.length
  monotone : Monotone bound

inductive Inflating (i : ZStream) (whole : Str) : i.State → Str → Str → Prop
  | init : Inflating i whole i.init [] []
  | call {q : i.State} {taken made : Str} (h : Inflating i whole q taken made) {input : Str} (hinput :
    taken ++ input <+: whole)
    (finish : Bool) {room : ℕ} (hroom : 0 < room) :
    Inflating i whole (i.call q input finish room).stream
      (taken ++ input.take (i.call q input finish room).consumed)
      (made ++ (i.call q input finish room).output)

/-- What zlib says of `inflate` on the complete stream `whole` of `plain`: it makes `plain` and nothing
else; it goes on until the input is used up, the output is full or the stream is at its end; and with all of
the stream and room left it is at its end, also when it was before. -/
structure Inflates (i : ZStream) (whole plain : Str) : Prop where
  ret {q : i.State} {taken made : Str} (h : i.Inflating whole q taken made) {input : Str} (hinput :
    taken ++ input <+: whole)
    (finish : Bool) {room : ℕ} (hroom : 0 < room) : (i.call q input finish room).ret = .streamEnd ∨
      ((i.call q input finish room).ret = .ok ∨ (i.call q input finish room).ret = .bufError) ∧
        (input.drop (i.call q input finish room).consumed = [] ∨ (i.call q input finish room).output.length = room)
  room_le {q : i.State} {taken made : Str} (h : i.Inflating whole q taken made) {input : Str} (hinput :
    taken ++ input <+: whole)
    (finish : Bool) {room : ℕ} (hroom : 0 < room) : (i.call q input finish room).output.length ≤ room
  made_begins {q : i.State} {taken made : Str} (h : i.Inflating whole q taken made) : made <+: plain
  at_end {q : i.State} {taken made : Str} (h : i.Inflating whole q taken made) {input : Str} (hinput :
    taken ++ input <+: whole)
    (finish : Bool) {room : ℕ} (hroom : 0 < room) (hret : (i.call q input finish room).ret = .streamEnd) :
    taken ++ input.take (i.call q input finish room).consumed = whole ∧
      made ++ (i.call q input finish room).output = plain
  ends {q : i.State} {taken made : Str} (h : i.Inflating whole q taken made) {input : Str} (hinput :
    taken ++ input = whole)
    (finish : Bool) {room : ℕ} (hroom : 0 < room) (hout : (i.call q input finish room).output.length < room) :
    (i.call q input finish room).ret = .streamEnd

structure Inverse (d i : ZStream) (bound : ℕ → ℕ) : Prop where
  deflates : d.Deflates bound
  inflates {plain whole : Str} (h : d.Deflated plain whole) : i.Inflates whole plain

lemma take_of_drop_nil {input : Str} {n : ℕ} (h : input.drop n = []) : input.take n = input := by
  have hsplit := List.take_append_drop n input
  rwa [h, List.append_nil] at hsplit

section Rounds

variable {z : ZStream} {finish : Bool} {q : z.State} {input : Str}

lemma processLoop_round (fuel : ℕ) (output : Str) (hret : (z.call q input finish outputRoom).ret = .streamEnd ∨
    (z.call q input finish outputRoom).ret = .ok ∨ (z.call q input finish outputRoom).ret = .bufError) :
    z.processLoop finish (fuel + 1) q input output =
        some (true, (z.call q input finish outputRoom).stream,
          output ++ (z.call q input finish outputRoom).output) ∧
      ((z.call q input finish outputRoom).ret = .streamEnd ∨ finish = false ∧
        (input.drop (z.call q input finish outputRoom).consumed = [] ∨
        (z.call q input finish outputRoom).output.length < outputRoom)) ∨
    z.processLoop finish (fuel + 1) q input output = z.processLoop finish fuel
      (z.call q input finish outputRoom).stream
        (input.drop (z.call q input finish outputRoom).consumed)
          (output ++ (z.call q input finish outputRoom).output) ∧
      (z.call q input finish outputRoom).ret ≠ .streamEnd ∧
        (outputRoom ≤ (z.call q input finish outputRoom).output.length ∨ finish = true) := by
  rw [processLoop]
  generalize z.call q input finish outputRoom = r at hret
  have herror : ¬(r.ret = .streamError ∨ r.ret = .dataError ∨ r.ret = .memError) := by
    rcases hret with h | h | h <;> simp [h]
  have hgood : decide (r.ret = .ok ∨ r.ret = .streamEnd ∨ r.ret = .bufError) = true := by
    rcases hret with h | h | h <;> simp [h]
  dsimp only
  rw [if_neg herror, hgood]
  by_cases hend : r.ret = .streamEnd
  · rw [if_pos hend]
    exact .inl ⟨rfl, .inl hend⟩
  rw [if_neg hend]
  by_cases hempty : r.ret = .bufError ∧ input.drop r.consumed = [] ∧ finish = false
  · rw [if_pos hempty]
    exact .inl ⟨rfl, .inr ⟨hempty.2.2, .inl hempty.2.1⟩⟩
  rw [if_neg hempty]
  by_cases hmore : outputRoom - r.output.length = 0 ∨ finish = true ∧ r.ret ≠ .streamEnd
  · rw [if_pos hmore]
    exact .inr ⟨rfl, hend, hmore.imp Nat.le_of_sub_eq_zero And.left⟩
  · rw [if_neg hmore]
    simp only [not_or, not_and, not_not] at hmore
    have hfinish : finish = false := by
      by_contra hf
      exact hend (hmore.2 (by simpa using hf))
    exact .inl ⟨rfl, .inr ⟨hfinish, .inr (by omega)⟩⟩

end Rounds

section Deflating

variable {bound : ℕ → ℕ} {q : d.State} {taken made : Str}

lemma outputRoom_pos : 0 < outputRoom := by decide

lemma Deflates.feed_loop (hd : d.Deflates bound) {n fuel : ℕ} {input : Str} (output : Str)
    (h : d.Deflating q taken made false)
    (hn : taken.length + input.length ≤ n) (hfuel : bound n < made.length + fuel) : ∃ q' out,
      d.processLoop false fuel q input output = some (true, q', output ++ out) ∧
        d.Deflating q' (taken ++ input) (made ++ out) false := by
  induction fuel generalizing q taken made input output with
  | zero =>
    have hbound := (hd.bounded h).trans (hd.monotone ((Nat.le_add_right _ _).trans hn))
    omega
  | succ fuel ih =>
    have hnext := h.feed input outputRoom_pos
    have hret := hd.feed_ret h input outputRoom_pos
    have hstops := hd.feed_stops h input outputRoom_pos
    rcases processLoop_round fuel output (.inr hret) with ⟨hloop, hwhy⟩ | ⟨hloop, hend, hfull⟩
    · have hall : input.drop (d.call q input false outputRoom).consumed = [] := by
        rcases hwhy with hend | ⟨_, hempty | hroom⟩
        · rcases hret with hret | hret <;> cases hend.symm.trans hret
        · exact hempty
        · exact hstops.resolve_right hroom.ne
      rw [take_of_drop_nil hall] at hnext
      exact ⟨_, _, hloop, hnext⟩
    · have hroom : 0 < (d.call q input false outputRoom).output.length := by
        rcases hfull with hfull | hfull
        · exact outputRoom_pos.trans_le hfull
        · cases hfull
      have hsplit := congrArg List.length (List.take_append_drop (d.call q input false outputRoom).consumed input)
      rw [List.length_append] at hsplit
      have hn' : (taken ++ input.take (d.call q input false outputRoom).consumed).length +
          (input.drop (d.call q input false outputRoom).consumed).length ≤ n := by
        rw [List.length_append]
        omega
      have hfuel' : bound n < (made ++ (d.call q input false outputRoom).output).length + fuel := by
        rw [List.length_append]
        omega
      obtain ⟨q', out, hrest, hdeflating⟩ :=
        ih (output ++ (d.call q input false outputRoom).output) hnext hn' hfuel'
      refine ⟨q', (d.call q input false outputRoom).output ++ out, ?_, ?_⟩
      · rw [hloop, hrest, List.append_assoc]
      · rwa [List.append_assoc, List.take_append_drop, List.append_assoc] at hdeflating

lemma Deflates.finish_loop (hd : d.Deflates bound) {fuel : ℕ} {finishing : Bool} (output : Str)
    (h : d.Deflating q taken made finishing) (hfuel : bound taken.length < made.length + fuel) : ∃ q' out,
      d.processLoop true fuel q [] output = some (true, q', output ++ out) ∧ d.Deflated taken (made ++ out) := by
  induction fuel generalizing q made finishing output with
  | zero =>
    have hbound := hd.bounded h
    omega
  | succ fuel ih =>
    have hret := hd.finish_ret h outputRoom_pos
    rcases processLoop_round fuel output (hret.imp_right And.left) with ⟨hloop, hwhy⟩ | ⟨hloop, hend, _⟩
    · have hend : (d.call q [] true outputRoom).ret = .streamEnd := hwhy.resolve_right fun h => by cases h.1
      exact ⟨_, _, hloop, q, made, finishing, outputRoom, h, outputRoom_pos, hend, rfl⟩
    · have hfull := (hret.resolve_left hend).2
      have hpos := outputRoom_pos
      have hfuel' : bound taken.length < (made ++ (d.call q [] true outputRoom).output).length + fuel := by
        rw [List.length_append]
        omega
      obtain ⟨q', out, hrest, hdeflated⟩ :=
        ih (output ++ (d.call q [] true outputRoom).output) (h.finish outputRoom_pos hend) hfuel'
      refine ⟨q', (d.call q [] true outputRoom).output ++ out, ?_, ?_⟩
      · rw [hloop, List.drop_nil, hrest, List.append_assoc]
      · rwa [List.append_assoc] at hdeflated

end Deflating

section Inflating

variable {whole plain : Str} {q : i.State} {taken made : Str}

lemma Inflates.feed_loop (hi : i.Inflates whole plain) {fuel : ℕ} {input : Str} (output : Str)
    (h : i.Inflating whole q taken made)
    (hinput : taken ++ input <+: whole) (hfuel : plain.length < made.length + fuel) : ∃ q' out,
      i.processLoop false fuel q input output = some (true, q', output ++ out) ∧
        i.Inflating whole q' (taken ++ input) (made ++ out) := by
  induction fuel generalizing q taken made input output with
  | zero =>
    have hlen := (hi.made_begins h).length_le
    omega
  | succ fuel ih =>
    have hnext := h.call hinput false outputRoom_pos
    have hret := hi.ret h hinput false outputRoom_pos
    rcases processLoop_round fuel output (hret.imp_right And.left) with ⟨hloop, hwhy⟩ | ⟨hloop, hend, hfull⟩
    · have hall : taken ++ input.take (i.call q input false outputRoom).consumed = taken ++ input := by
        rcases hwhy with hend | ⟨_, hempty | hroom⟩
        · have hwhole := (hi.at_end h hinput false outputRoom_pos hend).1
          apply List.IsPrefix.eq_of_length_le ((List.prefix_append_right_inj taken).2 (List.take_prefix _ _))
          exact hwhole ▸ hinput.length_le
        · rw [take_of_drop_nil hempty]
        · rcases hret with hend | ⟨_, hempty | hfull⟩
          · have hwhole := (hi.at_end h hinput false outputRoom_pos hend).1
            apply List.IsPrefix.eq_of_length_le ((List.prefix_append_right_inj taken).2 (List.take_prefix _ _))
            exact hwhole ▸ hinput.length_le
          · rw [take_of_drop_nil hempty]
          · exact absurd hfull hroom.ne
      rw [hall] at hnext
      exact ⟨_, _, hloop, hnext⟩
    · have hroom : 0 < (i.call q input false outputRoom).output.length := by
        rcases hfull with hfull | hfull
        · exact outputRoom_pos.trans_le hfull
        · cases hfull
      have hinput' : (taken ++ input.take (i.call q input false outputRoom).consumed) ++
          input.drop (i.call q input false outputRoom).consumed <+: whole := by
        rwa [List.append_assoc, List.take_append_drop]
      have hfuel' : plain.length < (made ++ (i.call q input false outputRoom).output).length + fuel := by
        rw [List.length_append]
        omega
      obtain ⟨q', out, hrest, hinflating⟩ :=
        ih (output ++ (i.call q input false outputRoom).output) hnext hinput' hfuel'
      refine ⟨q', (i.call q input false outputRoom).output ++ out, ?_, ?_⟩
      · rw [hloop, hrest, List.append_assoc]
      · rwa [List.append_assoc, List.take_append_drop, List.append_assoc] at hinflating

lemma Inflates.finish_loop (hi : i.Inflates whole plain) {fuel : ℕ} (output : Str)
    (h : i.Inflating whole q whole made)
    (hfuel : plain.length < made.length + fuel) : ∃ q' out,
      i.processLoop true fuel q [] output = some (true, q', output ++ out) ∧ made ++ out = plain := by
  induction fuel generalizing q made output with
  | zero =>
    have hlen := (hi.made_begins h).length_le
    omega
  | succ fuel ih =>
    have hinput : whole ++ [] <+: whole := by rw [List.append_nil]
    have hret := hi.ret h hinput true outputRoom_pos
    rcases processLoop_round fuel output (hret.imp_right And.left) with ⟨hloop, hwhy⟩ | ⟨hloop, hend, _⟩
    · have hend : (i.call q [] true outputRoom).ret = .streamEnd := hwhy.resolve_right fun h => by cases h.1
      exact ⟨_, _, hloop, (hi.at_end h hinput true outputRoom_pos hend).2⟩
    · have hfull : outputRoom ≤ (i.call q [] true outputRoom).output.length := by
        by_contra hroom
        exact hend (hi.ends h (List.append_nil whole) true outputRoom_pos (not_le.1 hroom))
      have hpos := outputRoom_pos
      have hfuel' : plain.length < (made ++ (i.call q [] true outputRoom).output).length + fuel := by
        rw [List.length_append]
        omega
      have hnext := h.call hinput true outputRoom_pos
      rw [List.take_nil, List.append_nil] at hnext
      obtain ⟨q', out, hrest, hplain⟩ := ih (output ++ (i.call q [] true outputRoom).output) hnext hfuel'
      refine ⟨q', (i.call q [] true outputRoom).output ++ out, ?_, ?_⟩
      · rw [hloop, List.drop_nil, hrest, List.append_assoc]
      · rwa [List.append_assoc] at hplain

end Inflating

section Calls

variable {fuel : ℕ} {made : List (Str × Bool)}

lemma after_concat {z : ZStream} {q : z.State} (h : z.after fuel made = some q) (c : Str × Bool) :
    z.after fuel (made ++ [c]) = (z.process fuel q c.1 c.2).map (·.2.1) := by
  unfold after at h ⊢
  rw [List.foldlM_append, h]
  simp

lemma last_concat {z : ZStream} {q : z.State} (h : z.after fuel made = some q) (c : Str × Bool) :
    z.last fuel (made ++ [c]) = (z.process fuel q c.1 c.2).map fun r => (r.1, r.2.2) := by
  unfold last
  rw [List.getLast?_concat, List.dropLast_concat, h]
  rfl

lemma process_of_lt {z : ZStream} (fuel : ℕ) (q : z.State) {input : Str} (h : input.length < 2 ^ 32)
    (finish : Bool) :
    z.process fuel q input finish = z.processLoop finish fuel q input [] := by
  unfold process
  rw [Nat.mod_eq_of_lt h, List.take_length]

lemma Deflates.stream {bound : ℕ → ℕ} (hd : d.Deflates bound) (made : List (Str × Bool)) {q : d.State}
    {taken out : Str}
    {chunks : List Str} {n : ℕ}
    (hq : d.after fuel made = some q) (h : d.Deflating q taken out false)
    (hchunks : ∀ chunk ∈ chunks, chunk.length < 2 ^ 32)
    (hn : taken.length + chunks.flatten.length ≤ n) (hfuel : bound n < fuel) : ∃ rest,
      Zlib.stream (Zlib.ofStreams fuel d i).deflate made chunks = some rest ∧
        d.Deflated (taken ++ chunks.flatten) (out ++ rest) := by
  induction chunks generalizing q taken out made with
  | nil =>
    rw [List.flatten_nil, List.length_nil, Nat.add_zero] at hn
    have hbound : bound taken.length < out.length + fuel :=
      (hd.monotone hn).trans_lt (hfuel.trans_le (Nat.le_add_left _ _))
    obtain ⟨q', rest, hloop, hdeflated⟩ := hd.finish_loop [] h hbound
    refine ⟨rest, ?_, by rwa [List.flatten_nil, List.append_nil]⟩
    simp only [Zlib.stream, Zlib.ofStreams, last_concat hq]
    rw [process_of_lt fuel q (by decide), hloop]
    rfl
  | cons chunk chunks ih =>
    rw [List.flatten_cons, List.length_append] at hn
    have hbound : bound n < out.length + fuel := hfuel.trans_le (Nat.le_add_left _ _)
    obtain ⟨q', first, hloop, hdeflating⟩ := hd.feed_loop [] h (by omega : taken.length + chunk.length ≤ n) hbound
    have hchunk := process_of_lt fuel q (hchunks chunk List.mem_cons_self) false
    have hq' : d.after fuel (made ++ [(chunk, false)]) = some q' := by
      rw [after_concat hq, hchunk, hloop]
      rfl
    have hn' : (taken ++ chunk).length + chunks.flatten.length ≤ n := by
      rw [List.length_append]
      omega
    obtain ⟨rest, hstream, hdeflated⟩ :=
      ih _ hq' hdeflating (fun c hc => hchunks c (List.mem_cons_of_mem _ hc)) hn'
    refine ⟨first ++ rest, ?_, by rwa [List.flatten_cons, ← List.append_assoc, ← List.append_assoc]⟩
    simp only [Zlib.stream, hstream]
    simp only [Zlib.ofStreams, last_concat hq]
    rw [hchunk, hloop]
    rfl

lemma Inflates.stream {whole plain : Str} (hi : i.Inflates whole plain) (made : List (Str × Bool))
    {q : i.State} {taken out : Str}
    {chunks : List Str}
    (hq : i.after fuel made = some q) (h : i.Inflating whole q taken out)
    (hchunks : ∀ chunk ∈ chunks, chunk.length < 2 ^ 32)
    (hwhole : taken ++ chunks.flatten = whole) (hfuel : plain.length < fuel) : ∃ rest,
      Zlib.stream (Zlib.ofStreams fuel d i).inflated made chunks = some rest ∧ out ++ rest = plain := by
  have hbound (out : Str) : plain.length < out.length + fuel := hfuel.trans_le (Nat.le_add_left _ _)
  induction chunks generalizing q taken out made with
  | nil =>
    rw [List.flatten_nil, List.append_nil] at hwhole
    obtain ⟨q', rest, hloop, hplain⟩ := hi.finish_loop [] (hwhole ▸ h) (hbound out)
    refine ⟨rest, ?_, hplain⟩
    simp only [Zlib.stream, Zlib.inflated, Zlib.ofStreams, last_concat hq]
    rw [process_of_lt fuel q (by decide), hloop]
    rfl
  | cons chunk chunks ih =>
    rw [List.flatten_cons, ← List.append_assoc] at hwhole
    obtain ⟨q', first, hloop, hinflating⟩ := hi.feed_loop [] h ⟨_, hwhole⟩ (hbound out)
    have hchunk := process_of_lt fuel q (hchunks chunk List.mem_cons_self) false
    have hq' : i.after fuel (made ++ [(chunk, false)]) = some q' := by
      rw [after_concat hq, hchunk, hloop]
      rfl
    obtain ⟨rest, hstream, hplain⟩ :=
      ih _ hq' hinflating (fun c hc => hchunks c (List.mem_cons_of_mem _ hc)) hwhole
    refine ⟨first ++ rest, ?_, by rwa [← List.append_assoc]⟩
    simp only [Zlib.stream, hstream]
    simp only [Zlib.inflated, Zlib.ofStreams, last_concat hq]
    rw [hchunk, hloop]
    rfl

lemma Inverse.round_trip {bound : ℕ → ℕ} (h : Inverse d i bound) {plain : List Str}
    (hbound : bound plain.flatten.length < fuel)
    (hlen : plain.flatten.length < fuel) (hplain : ∀ chunk ∈ plain, chunk.length < 2 ^ 32) : ∃ whole,
      Zlib.stream (Zlib.ofStreams fuel d i).deflate [] plain = some whole ∧ ∀ chunks :
        List Str, chunks.flatten = whole →
        (∀ chunk ∈ chunks, chunk.length < 2 ^ 32) →
          Zlib.stream (Zlib.ofStreams fuel d i).inflated [] chunks = some plain.flatten := by
  obtain ⟨whole, hdeflate, hdeflated⟩ := h.deflates.stream (i := i) [] rfl .init hplain (Nat.zero_add _).le hbound
  refine ⟨whole, hdeflate, fun chunks hsame hchunks => ?_⟩
  obtain ⟨rest, hinflate, hrest⟩ := (h.inflates hdeflated).stream (d := d) [] rfl .init hchunks hsame hlen
  rw [hinflate]
  exact congrArg some hrest

end Calls

end ZStream

end SimpleSftpd
