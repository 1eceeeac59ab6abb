import SimpleSftpd.Core.Returns
import SimpleSftpd.Utils.Compression

namespace SimpleSftpd

open Cxx Interaction Prog

namespace ZStream

inductive Called (z : ZStream) : z.State → Str → Str → Prop
  | init : Called z z.init [] []
  | call {q : z.State} {taken made : Str} (h : Called z q taken made) (input : Str) (finish : Bool) :
    Called z (z.call q input finish outputRoom).stream
      (taken ++ input.take (z.call q input finish outputRoom).consumed)
      (made ++ (z.call q input finish outputRoom).output)

def Gives (ret : ZCode) : Prop := ret = .streamError ∨ ret = .dataError ∨ ret = .memError

/-- What zlib says of a stream, where `ends` holds of what has a whole stream at its start and `fails` of
what it reports as an error: output is limited by the room and by the input; the end is reported at it and
after it, and so is an error; other calls go on until the input is used up or the output is full. -/
structure Obeys (z : ZStream) (ends fails : Str → Prop) (bound : ℕ → ℕ) : Prop where
  bounded {q : z.State} {taken made : Str} (h : z.Called q taken made) : made.length ≤ bound taken.length
  monotone : Monotone bound
  ends_mono {data : Str} (h : ends data) (more : Str) : ends (data ++ more)
  fails_mono {data : Str} (h : fails data) (more : Str) : fails (data ++ more)
  at_end {q : z.State} {taken made input : Str} {finish : Bool} (h : z.Called q taken made)
    (hret : (z.call q input finish outputRoom).ret = .streamEnd) :
    ends (taken ++ input.take (z.call q input finish outputRoom).consumed)
  at_failure {q : z.State} {taken made input : Str} {finish : Bool} (h : z.Called q taken made)
    (hret : Gives (z.call q input finish outputRoom).ret) : finish = true → fails (taken ++ input)
  ended {q : z.State} {taken made input : Str} (h : z.Called q taken made) (hends : ends (taken ++ input))
    (hroom : (z.call q input true outputRoom).output.length < outputRoom) :
    (z.call q input true outputRoom).ret = .streamEnd
  failed {q : z.State} {taken made input : Str} {finish : Bool} (h : z.Called q taken made) (hfails :
    fails (taken ++ input))
    (hroom : (z.call q input finish outputRoom).output.length < outputRoom) :
    Gives (z.call q input finish outputRoom).ret
  exhausted {q : z.State} {taken made input : Str} {finish : Bool} (h : z.Called q taken made)
    (hret : (z.call q input finish outputRoom).ret = .ok ∨ (z.call q input finish outputRoom).ret = .bufError)
    (hroom : (z.call q input finish outputRoom).output.length < outputRoom) :
    input.drop (z.call q input finish outputRoom).consumed = []

variable {z : ZStream} {ends fails : Str → Prop} {bound : ℕ → ℕ} {q : z.State} {taken made input : Str}
    {finish : Bool} {fuel : ℕ}

lemma processLoop_cases (z : ZStream) (finish : Bool) (fuel : ℕ) (q : z.State) (input output : Str) :
    let r := z.call q input finish outputRoom
    (∃ good out, z.processLoop finish (fuel + 1) q input output = some (good, r.stream, out) ∧
      (good = true → r.ret = .ok ∨ r.ret = .streamEnd ∨ r.ret = .bufError) ∧
      (Gives r.ret ∨ r.ret = .streamEnd ∨ finish = false ∧
        (input.drop r.consumed = [] ∨ r.output.length < outputRoom))) ∨
    (z.processLoop finish (fuel + 1) q input output = z.processLoop finish fuel r.stream
      (input.drop r.consumed) (output ++ r.output) ∧
      ¬Gives r.ret ∧ r.ret ≠ .streamEnd ∧ (outputRoom ≤ r.output.length ∨ finish = true)) := by
  rw [processLoop]
  generalize z.call q input finish outputRoom = r
  dsimp only
  by_cases hgives : r.ret = .streamError ∨ r.ret = .dataError ∨ r.ret = .memError
  · rw [if_pos hgives]
    exact .inl ⟨false, output, rfl, fun h => (by cases h), .inl hgives⟩
  rw [if_neg hgives]
  by_cases hend : r.ret = .streamEnd
  · rw [if_pos hend]
    exact .inl ⟨_, _, rfl, of_decide_eq_true, .inr (.inl hend)⟩
  rw [if_neg hend]
  by_cases hempty : r.ret = .bufError ∧ input.drop r.consumed = [] ∧ finish = false
  · rw [if_pos hempty]
    exact .inl ⟨_, _, rfl, of_decide_eq_true, .inr (.inr ⟨hempty.2.2, .inl hempty.2.1⟩)⟩
  rw [if_neg hempty]
  by_cases hmore : outputRoom - r.output.length = 0 ∨ finish = true ∧ r.ret ≠ .streamEnd
  · rw [if_pos hmore]
    exact .inr ⟨rfl, hgives, hend, hmore.imp Nat.le_of_sub_eq_zero And.left⟩
  · rw [if_neg hmore]
    have hroom : r.output.length < outputRoom := by
      have hleft : outputRoom - r.output.length ≠ 0 := fun h => hmore (.inl h)
      omega
    have hfinish : finish = false := by
      by_contra hf
      exact hmore (.inr ⟨by simpa using hf, hend⟩)
    exact .inl ⟨_, _, rfl, of_decide_eq_true, .inr (.inr ⟨hfinish, .inr hroom⟩)⟩

lemma split_input (taken input : Str) (n : ℕ) : taken ++ input.take n ++ input.drop n = taken ++ input := by
  rw [List.append_assoc, List.take_append_drop]

lemma Obeys.loop_ends (h : z.Obeys ends fails bound) (fuel : ℕ) :
    ∀ {q : z.State} {taken made input : Str} (output : Str), z.Called q taken made →
    (finish = false ∨ ends (taken ++ input) ∨ fails (taken ++ input)) →
      bound (taken ++ input).length < made.length + fuel →
    ∃ r, z.processLoop finish fuel q input output = some r := by
  induction fuel with
  | zero =>
    intro q taken made input output hq _ hfuel
    have hmade := (h.bounded hq).trans (h.monotone (List.prefix_append taken input).length_le)
    omega
  | succ fuel ih =>
    intro q taken made input output hq hwhy hfuel
    rcases z.processLoop_cases finish fuel q input output with ⟨good, out, hloop, _⟩ | ⟨hloop, hgives, hend, hmore⟩
    · exact ⟨_, hloop⟩
    · have hfull : outputRoom ≤ (z.call q input finish outputRoom).output.length := by
        by_contra hroom
        rcases hwhy with rfl | hends | hfails
        · exact absurd (hmore.resolve_left hroom) (by decide)
        · obtain rfl := hmore.resolve_left hroom
          exact hend (h.ended hq hends (not_le.1 hroom))
        · exact hgives (h.failed hq hfails (not_le.1 hroom))
      have hpos := outputRoom_pos
      have hsplit := split_input taken input (z.call q input finish outputRoom).consumed
      rw [hloop]
      apply ih _ (hq.call input finish)
      · rwa [hsplit]
      · have hmade : (made ++ (z.call q input finish outputRoom).output).length =
            made.length + (z.call q input finish outputRoom).output.length := List.length_append
        rw [hsplit]
        omega

lemma Obeys.loop_hangs (h : z.Obeys ends fails bound) (fuel : ℕ) :
    ∀ {q : z.State} {taken made input : Str} (output : Str), z.Called q taken made →
    ¬ends (taken ++ input) → ¬fails (taken ++ input) → z.processLoop true fuel q input output = none := by
  induction fuel with
  | zero => exact fun _ _ _ _ => rfl
  | succ fuel ih =>
    intro q taken made input output hq hends hfails
    have hsplit := split_input taken input (z.call q input true outputRoom).consumed
    rcases z.processLoop_cases true fuel q input output with ⟨good, out, _, _,
      hgives | hend | ⟨hfinish, _⟩⟩ | ⟨hloop, _⟩
    · exact absurd (h.at_failure hq hgives rfl) hfails
    · have hwhole := h.ends_mono (h.at_end hq hend) (input.drop (z.call q input true outputRoom).consumed)
      rw [hsplit] at hwhole
      exact absurd hwhole hends
    · cases hfinish
    · rw [hloop]
      apply ih _ (hq.call input true)
      · rwa [hsplit]
      · rwa [hsplit]

def counted (input : Str) : Str := input.take (input.length % 2 ^ 32)

lemma Obeys.process_ends_iff (h : z.Obeys ends fails bound) (hq : z.Called q taken made) (input : Str)
    (finish : Bool) :
    (∃ fuel r, z.process fuel q input finish = some r) ↔
      finish = false ∨ ends (taken ++ counted input) ∨ fails (taken ++ counted input) := by
  constructor
  · rintro ⟨fuel, r, hr⟩
    by_contra hnot
    simp only [not_or, Bool.not_eq_false] at hnot
    obtain ⟨rfl, hends, hfails⟩ := hnot
    have hnone := h.loop_hangs fuel [] hq hends hfails
    exact absurd (hr.symm.trans hnone) (Option.some_ne_none r)
  · intro hwhy
    refine ⟨bound (taken ++ counted input).length + 1, ?_⟩
    apply h.loop_ends _ [] hq hwhy
    omega

lemma loop_called (fuel : ℕ) :
    ∀ {q : z.State} {taken made input output : Str} {r : Bool × z.State × Str}, z.Called q taken made →
    z.processLoop finish fuel q input output = some r → ∃ taken' made', z.Called r.2.1 taken' made' ∧
      taken <+: taken' ∧ taken' <+: taken ++ input ∧
      ∀ (ends fails : Str → Prop) (bound : ℕ → ℕ), z.Obeys ends fails bound → finish = false → r.1 = true →
        taken' = taken ++ input ∨ ends taken' := by
  induction fuel with
  | zero => exact fun _ hr => by cases hr
  | succ fuel ih =>
    intro q taken made input output r hq hr
    have hnext := hq.call input finish
    have hsplit := split_input taken input (z.call q input finish outputRoom).consumed
    rcases z.processLoop_cases finish fuel q input output with ⟨good, out, hloop, hgood, hwhy⟩ | ⟨hloop, _⟩
    · rw [hloop] at hr
      obtain rfl := Option.some.inj hr
      refine ⟨_, _, hnext, List.prefix_append _ _, ⟨_, hsplit⟩, fun ends fails bound h _ hdone => ?_⟩
      have hall (hrest : input.drop (z.call q input finish outputRoom).consumed = []) :
          taken ++ input.take (z.call q input finish outputRoom).consumed = taken ++ input := by
        rw [← hsplit, hrest, List.append_nil]
      rcases hwhy with hgives | hend | ⟨_, hrest | hroom⟩
      · exact absurd (hgood hdone) (by rcases hgives with h | h | h <;> simp [h])
      · exact .inr (h.at_end hq hend)
      · exact .inl (hall hrest)
      · rcases hgood hdone with hok | hend | hbuf
        · exact .inl (hall (h.exhausted hq (.inl hok) hroom))
        · exact .inr (h.at_end hq hend)
        · exact .inl (hall (h.exhausted hq (.inr hbuf) hroom))
    · rw [hloop] at hr
      obtain ⟨taken', made', hcalled, hbegins, hends⟩ := ih hnext hr
      rw [hsplit] at hends
      exact ⟨taken', made', hcalled, (List.prefix_append _ _).trans hbegins, hends⟩

lemma after_concat_eq_some {made : List (Str × Bool)} {c : Str × Bool} : z.after fuel (made ++ [c]) = some q ↔
    ∃ q₀, z.after fuel made = some q₀ ∧ ∃ r, z.process fuel q₀ c.1 c.2 = some r ∧ r.2.1 = q := by
  cases hmade : z.after fuel made with
  | none =>
    unfold after at hmade ⊢
    rw [List.foldlM_append, hmade]
    simp
  | some q₀ =>
    rw [after_concat hmade, Option.map_eq_some_iff]
    simp

lemma after_called (made : List (Str × Bool)) (hq : z.after fuel made = some q) :
    ∃ taken out, z.Called q taken out := by
  induction made using List.reverseRecOn generalizing q with
  | nil =>
    obtain rfl : z.init = q := Option.some.inj hq
    exact ⟨[], [], .init⟩
  | append_singleton made c ih =>
    obtain ⟨q₀, hq₀, r, hr, rfl⟩ := after_concat_eq_some.1 hq
    obtain ⟨taken, out, hcalled⟩ := ih hq₀
    obtain ⟨taken', out', hcalled', _⟩ := loop_called fuel hcalled hr
    exact ⟨taken', out', hcalled'⟩

lemma processLoop_mono {n : ℕ} (fuel : ℕ) : ∀ {q : z.State} {input output : Str} {r : Bool × z.State × Str},
    z.processLoop finish fuel q input output = some r →
      z.processLoop finish (fuel + n) q input output = some r := by
  induction fuel with
  | zero => exact fun hr => by cases hr
  | succ fuel ih =>
    intro q input output r hr
    rw [Nat.add_right_comm]
    rw [processLoop] at hr ⊢
    dsimp only at hr ⊢
    split
    · rename_i hgives
      rwa [if_pos hgives] at hr
    rename_i hgives
    rw [if_neg hgives] at hr
    split
    · rename_i hend
      rwa [if_pos hend] at hr
    rename_i hend
    rw [if_neg hend] at hr
    split
    · rename_i hempty
      rwa [if_pos hempty] at hr
    rename_i hempty
    rw [if_neg hempty] at hr
    split
    · rename_i hmore
      rw [if_pos hmore] at hr
      exact ih hr
    · rename_i hmore
      rwa [if_neg hmore] at hr

lemma after_mono {fuel n : ℕ} (h : fuel ≤ n) (made : List (Str × Bool)) (hq : z.after fuel made = some q) :
    z.after n made = some q := by
  obtain ⟨k, rfl⟩ := Nat.exists_eq_add_of_le h
  induction made using List.reverseRecOn generalizing q with
  | nil => exact hq
  | append_singleton made c ih =>
    obtain ⟨q₀, hq₀, r, hr, rfl⟩ := after_concat_eq_some.1 hq
    exact after_concat_eq_some.2 ⟨q₀, ih hq₀, r, processLoop_mono fuel hr, rfl⟩

/-- `zlib` is what the stream makes of the calls of `process`: it hangs where no number of rounds is enough. -/
structure Models (z : ZStream) (zlib : Zlib) : Prop where
  hangs {made : List (Str × Bool)} (h : zlib.inflate made = .hangs) : ∀ fuel, z.last fuel made = none
  ok {made : List (Str × Bool)} {output : Str} (h : zlib.inflate made = .ok output) :
    ∃ fuel, z.last fuel made = some (true, output)

def Fed (z : ZStream) (ends : Str → Prop) (whole : Str) (made : List (Str × Bool)) (rest : Str) : Prop :=
  ∃ fuel q taken out, z.after fuel made = some q ∧ z.Called q taken out ∧ (taken ++ rest = whole ∨ ends taken)

variable {zlib : Zlib} {whole : Str}

lemma Fed.not_hangs (h : z.Obeys ends fails bound) (hm : z.Models zlib) {made : List (Str × Bool)} {rest : Str}
    (hf : z.Fed ends whole made rest) (chunk : Str) (finish : Bool)
    (hwhy : finish = false ∨ rest = [] ∧ chunk = [] ∧ (ends whole ∨ fails whole)) :
    zlib.inflate (made ++ [(chunk, finish)]) ≠ .hangs := by
  intro hhangs
  obtain ⟨fuel, q, taken, out, hq, hcalled, htaken⟩ := hf
  have hends : ∃ fuel r, z.process fuel q chunk finish = some r := by
    apply (h.process_ends_iff hcalled chunk finish).2
    rcases hwhy with hfinish | ⟨rfl, rfl, hwhole⟩
    · exact .inl hfinish
    · rw [List.append_nil] at htaken
      have hnil : taken ++ counted [] = taken := List.append_nil taken
      rw [hnil]
      rcases htaken with rfl | hended
      · exact .inr hwhole
      · exact .inr (.inl hended)
  obtain ⟨fuel', r, hr⟩ := hends
  have hnone := hm.hangs hhangs (fuel + fuel')
  have hr' : z.process (fuel + fuel') q chunk finish = some r := by
    rw [Nat.add_comm]
    exact processLoop_mono fuel' hr
  rw [last_concat (after_mono (Nat.le_add_right fuel fuel') made hq), hr'] at hnone
  cases hnone

lemma Fed.next (h : z.Obeys ends fails bound) (hm : z.Models zlib) {made : List (Str × Bool)}
    {chunk rest output : Str}
    (hf : z.Fed ends whole made (chunk ++ rest)) (hchunk : chunk.length < 2 ^ 32)
    (hok : zlib.inflate (made ++ [(chunk, false)]) = .ok output) :
    z.Fed ends whole (made ++ [(chunk, false)]) rest := by
  obtain ⟨fuel, q, taken, out, hq, hcalled, htaken⟩ := hf
  obtain ⟨fuel', hlast⟩ := hm.ok hok
  unfold last at hlast
  rw [List.getLast?_concat, List.dropLast_concat] at hlast
  obtain ⟨q', hq', hlast⟩ := Option.bind_eq_some_iff.1 hlast
  obtain ⟨⟨good, q₁, plain⟩, hr, hgood⟩ := Option.map_eq_some_iff.1 hlast
  obtain ⟨rfl, rfl⟩ := Prod.mk.inj hgood
  have hsame : q' = q := by
    have hlate := after_mono (Nat.le_add_right fuel fuel') made hq
    have hlate' := after_mono (Nat.le_add_left fuel' fuel) made hq'
    exact Option.some.inj (hlate'.symm.trans hlate)
  subst hsame
  have hloop := hr
  rw [process_of_lt fuel' q' hchunk] at hloop
  obtain ⟨taken', made', hcalled', hbegins, _, hall⟩ := loop_called fuel' hcalled hloop
  refine ⟨fuel', q₁, taken', made', after_concat_eq_some.2 ⟨q', hq', _, hr, rfl⟩, hcalled', ?_⟩
  rcases htaken with hwhole | hended
  · rcases hall _ _ _ h rfl rfl with rfl | hended
    · exact .inl (by rw [List.append_assoc, hwhole])
    · exact .inr hended
  · obtain ⟨more, rfl⟩ := hbegins
    exact .inr (h.ends_mono hended more)

end ZStream

namespace Session

variable {z : ZStream} {ends fails : Str → Prop} {bound : ℕ → ℕ} {zlib : Zlib}

lemma inflateLoop_returns (h : z.Obeys ends fails bound) (hm : z.Models zlib) (rate : Int) (start : ℕ)
    (fd : Fd) (peer : Peer)
    {whole : Str} (hwhole : peer.orderly = true → ends whole ∨ fails whole) (chunks : List Str) :
    (∀ chunk ∈ chunks, chunk.length < 2 ^ 32) →
      ∀ (made : List (Str × Bool)) (n : ℕ) (f : OutFile), z.Fed ends whole made chunks.flatten →
        (inflateLoop zlib rate start fd peer chunks made n f).Returns := by
  induction chunks with
  | nil =>
    intro _ made n f hf
    apply returns_call
    intro _
    split
    · trivial
    · rename_i horderly
      have hnot := hf.not_hangs h hm [] true (.inr ⟨rfl, rfl, hwhole (by simpa using horderly)⟩)
      apply Returns.bind
      · unfold inflate
        split
        · trivial
        · trivial
        · rename_i hhangs
          exact absurd hhangs hnot
      · intro plain
        cases plain with
        | none => trivial
        | some plain =>
          apply Returns.bind (writeAny_returns f plain)
          exact fun _ => trivial
  | cons chunk chunks ih =>
    intro hchunks made n f hf
    rw [List.flatten_cons] at hf
    have hnot := hf.not_hangs h hm chunk false (.inl rfl)
    have hrest (c : Str) (hc : c ∈ chunks) : c.length < 2 ^ 32 := hchunks c (List.mem_cons_of_mem _ hc)
    apply returns_call
    intro _
    unfold inflate
    cases hz : zlib.inflate (made ++ [(chunk, false)]) with
    | hangs => exact absurd hz hnot
    | failed => trivial
    | ok plain =>
      apply Returns.bind (writeAny_returns f plain)
      intro f'
      apply Returns.bind (applyThrottle_returns _ _ _)
      exact fun _ => ih hrest _ _ f' (hf.next h hm (hchunks chunk List.mem_cons_self) hz)

lemma receiveTo_returns (h : z.Obeys ends fails bound) {env : Service} (hm : z.Models env.zlib) (s : Session)
    (data_fd : Fd)
    (peer : Peer) (f : OutFile) (hchunks : ∀ chunk ∈ peer.chunks, chunk.length < 2 ^ 32)
    (hwhole : s.transferModeZ = true → peer.orderly = true → ends peer.chunks.flatten ∨
      fails peer.chunks.flatten) :
    (s.receiveTo env data_fd peer f).Returns := by
  apply returns_call
  intro start
  dsimp only
  split
  · rename_i hz
    apply returns_call
    intro valid
    cases valid with
    | false => exact fun _ _ => trivial
    | true =>
      apply Returns.bind
      · exact inflateLoop_returns h hm _ _ _ _ (hwhole hz) _ hchunks [] 0 f ⟨0, z.init, [], [], rfl,
          .init, .inl rfl⟩
      · exact fun _ _ _ => trivial
  · apply Returns.bind (receiveLoop_returns _ _ _ _ _ _ _)
    exact fun _ _ _ => trivial

end Session

theorem process_comes_to_an_end (z : ZStream) (ends fails : Str → Prop) (bound : ℕ → ℕ)
    (h : z.Obeys ends fails bound) :
    (∀ fuel earlier q, z.after fuel earlier = some q → ∃ taken made, z.Called q taken made) ∧
    (∀ q taken made, z.Called q taken made → ∀ input finish, (∃ fuel r, z.process fuel q input finish = some r) ↔
      finish = false ∨ ends (taken ++ ZStream.counted input) ∨ fails (taken ++ ZStream.counted input)) ∧
    ∀ (env : Service) (s : Session) data_fd peer f, z.Models env.zlib →
      (∀ chunk ∈ peer.chunks, chunk.length < 2 ^ 32) →
      (s.transferModeZ = true → peer.orderly = true → ends peer.chunks.flatten ∨ fails peer.chunks.flatten) →
        (s.receiveTo env data_fd peer f).Returns := by
  refine ⟨fun fuel earlier q hq => ZStream.after_called earlier hq, fun q taken made hq input finish => ?_, ?_⟩
  · exact h.process_ends_iff hq input finish
  · exact fun env s data_fd peer f hm hchunks hwhole =>
      Session.receiveTo_returns h hm s data_fd peer f hchunks hwhole

namespace ZStream

def starved : ZStream where
  State := Unit
  init := ()
  call _ input _ _ := ⟨if input = [] then .bufError else .ok, (), input.length, []⟩

def starvedZlib : Zlib := ⟨fun _ => none, fun made => if made.any (·.2) then .hangs else .ok []⟩

def starvedService : Service := { Service.standard [] [] with zlib := starvedZlib }

lemma starved_called {q : starved.State} {taken made : Str} (h : starved.Called q taken made) : made = [] := by
  induction h with
  | init => rfl
  | call _ _ _ ih =>
    rw [ih]
    rfl

lemma starved_ret (q : starved.State) (input : Str) (finish : Bool) :
    ¬Gives (starved.call q input finish outputRoom).ret ∧
    (starved.call q input finish outputRoom).ret ≠ .streamEnd := by
  unfold starved Gives
  dsimp only
  split <;> simp

lemma starved_obeys : starved.Obeys (fun _ => False) (fun _ => False) fun _ => 0 where
  bounded h := by rw [starved_called h]; exact le_rfl
  monotone := monotone_const
  ends_mono h _ := h
  fails_mono h _ := h
  at_end _ hret := absurd hret (starved_ret _ _ _).2
  at_failure _ hret := absurd hret (starved_ret _ _ _).1
  ended _ hends _ := hends.elim
  failed _ hfails _ := hfails.elim
  exhausted {_ _ _ input _} _ _ _ := List.drop_length (l := input)

lemma starved_loop (fuel : ℕ) (q : starved.State) (input output : Str) :
    ∃ r, starved.processLoop false (fuel + 1) q input output = some (true, r, output) := by
  refine ⟨(), ?_⟩
  rw [processLoop.eq_def]
  by_cases hinput : input = [] <;> simp [starved, hinput, outputRoom]

lemma starved_after {fuel : ℕ} (made : List (Str × Bool)) :
    (starved.after (fuel + 1) made).isSome = !made.any (·.2) := by
  induction made using List.reverseRecOn with
  | nil => rfl
  | append_singleton made c ih =>
    obtain ⟨input, finish⟩ := c
    rw [List.any_append]
    cases hmade : starved.after (fuel + 1) made with
    | none =>
      rw [hmade] at ih
      have hnone : starved.after (fuel + 1) (made ++ [(input, finish)]) = none := by
        apply Option.eq_none_iff_forall_ne_some.2
        intro q hq
        obtain ⟨q₀, hq₀, _⟩ := after_concat_eq_some.1 hq
        exact absurd (hmade.symm.trans hq₀) (Option.some_ne_none q₀).symm
      rw [hnone]
      cases hany : made.any (·.2) <;> simp [hany] at ih ⊢
    | some q =>
      rw [hmade] at ih
      obtain ⟨taken, out, hq⟩ := after_called made hmade
      rw [after_concat hmade]
      cases finish with
      | true =>
        have hnone : starved.process (fuel + 1) q input true = none :=
          starved_obeys.loop_hangs _ [] hq not_false not_false
        rw [hnone]
        simp
      | false =>
        obtain ⟨q', hq'⟩ := starved_loop fuel q (counted input) []
        have hsome : starved.process (fuel + 1) q input false = some (true, q', []) := hq'
        rw [hsome]
        simpa using ih

lemma isSome_last (z : ZStream) (fuel : ℕ) (made : List (Str × Bool)) :
    (z.last fuel made).isSome = (z.after fuel made).isSome := by
  induction made using List.reverseRecOn with
  | nil => rfl
  | append_singleton made c _ =>
    cases hmade : z.after fuel made with
    | none =>
      unfold last after at *
      rw [List.getLast?_concat, List.dropLast_concat, List.foldlM_append, hmade]
      rfl
    | some q =>
      rw [last_concat hmade, after_concat hmade, Option.isSome_map, Option.isSome_map]

lemma starved_models : starved.Models starvedZlib where
  hangs {made} h fuel := by
    have hany : made.any (·.2) = true := by
      by_contra hnone
      simp [starvedZlib, hnone] at h
    have hafter : (starved.after (fuel + 1) made).isSome = false := by rw [starved_after, hany]; rfl
    cases hlast : starved.last fuel made with
    | none => rfl
    | some r =>
      have hsome : (starved.after fuel made).isSome = true := by
        rw [← isSome_last, hlast]
        rfl
      obtain ⟨q, hq⟩ := Option.isSome_iff_exists.1 hsome
      rw [after_mono (Nat.le_succ fuel) made hq] at hafter
      cases hafter
  ok {made output} h := by
    have hany : made.any (·.2) = false := by
      by_contra hsome
      rw [Bool.not_eq_false] at hsome
      simp only [starvedZlib, hsome, if_true] at h
      cases h
    simp only [starvedZlib, hany, Bool.false_eq_true, if_false, Processed.ok.injEq] at h
    subst h
    refine ⟨1, ?_⟩
    induction made using List.reverseRecOn with
    | nil => rfl
    | append_singleton made c _ =>
      obtain ⟨input, finish⟩ := c
      simp only [List.any_append, List.any_cons, List.any_nil, Bool.or_false, Bool.or_eq_false_iff] at hany
      obtain ⟨hmade, rfl⟩ := hany
      obtain ⟨q, hq⟩ :=
        Option.isSome_iff_exists.1
        (show (starved.after 1 made).isSome = true by rw [starved_after made, hmade]; rfl)
      obtain ⟨q', hq'⟩ := starved_loop 0 q (counted input) []
      have hsome : starved.process 1 q input false = some (true, q', []) := hq'
      rw [last_concat hq, hsome]
      rfl

end ZStream

theorem process_comes_to_an_end_unfinished : (∃ fuel r, ZStream.starved.process fuel () [] false = some r) ∧
    (({ Session.opened 3 false false with transfer_mode_ := "Z" } : Session).receiveTo ZStream.starvedService
      5 ⟨[], false, by simp⟩
      ⟨6, 0, true⟩).Returns := by
  obtain ⟨_, hends, hreturns⟩ := process_comes_to_an_end ZStream.starved _ _ _ ZStream.starved_obeys
  refine ⟨(hends () [] [] .init [] false).2 (.inl rfl),
    hreturns ZStream.starvedService _ _ _ _ ZStream.starved_models ?_ ?_⟩
  · simp
  · exact fun _ h => by cases h

theorem process_does_not_come_to_an_end : (∀ fuel, ZStream.starved.process fuel () [] true = none) ∧
    ¬(({ Session.opened 3 false false with transfer_mode_ := "Z" } :
      Session).receiveTo ZStream.starvedService 5 .silent
      ⟨6, 0, true⟩).Returns := by
  refine ⟨fun fuel => ZStream.starved_obeys.loop_hangs fuel [] .init not_false not_false, fun h => ?_⟩
  exact h 0 true ()

end SimpleSftpd
