import SimpleSftpd.Core.Transfers
import SimpleSftpd.Sessions.VerifiedUser
import SimpleSftpd.Utils.Compression

namespace SimpleSftpd

open Cxx Interaction Prog Storage

namespace Session

variable {env : Service} {me : SessionId} {s : Session} {a : Arrival} {fs : FileSystem}

lemma handleSTOR_restarted {g : Storage} (hs : s.socket_ ≠ none) (hmode : s.transferModeZ = true)
    (hpos : 0 < s.resume_position_)
    (htargets : g.targets = []) (name : Str) :
    Ends (calls fun _ => True) (s.handleSTOR env name) (fun _ g' => g'.targets = [])
      (fun g' => g'.targets = []) g := by
  have hrefuse {code : ℕ} {text : Str} : Ends (calls fun _ => True) (s.reply code text >>= fun _ => pure s)
      (fun _ g' => g'.targets = []) (fun g' => g'.targets = []) g := ends_return hs (fun _ => trivial) htargets
  apply ends_call trivial
  intro fs _
  refine ends_ite (fun _ => hrefuse) fun _ => ends_ite (fun _ => hrefuse) fun _ => ?_
  apply ends_bind
  apply (quotaExceeded_storage trivial).mono ?_ fun _ => id
  rintro exceeded g' ⟨hsame, _⟩
  rw [hsame]
  refine ends_ite (fun _ => hrefuse) fun _ => ?_
  apply ends_bind
  apply modeZRefusal_storage hs fun _ => trivial
  · exact fun s' => ends_pure htargets
  · exact fun hgo => absurd (hgo hmode) (not_le.2 hpos)

lemma stor_answered (hs : s.socket_ ≠ none) (hv : a.command.verb = .stor)
    (hready : s.Readable env (s.storage env me a)) :
    (s.storage env me a).completed = true ∧
      ∃ consumed, s.Deposit env a.world.fs (s.resolvePath a.world.fs a.command.argument)
      (s.storage env me a) ((s.storage env me a).completed = true) consumed := by
  have hdispatch : Ends (calls fun _ => True) (s.dispatch env a.line)
      (fun _ g => s.Readable env g → g.completed = true ∧ ∃ consumed,
        s.Deposit env a.world.fs (s.resolvePath a.world.fs a.command.argument) g (g.completed = true) consumed)
      (fun g => s.Readable env g → g.completed = true ∧ ∃ consumed,
        s.Deposit env a.world.fs (s.resolvePath a.world.fs a.command.argument) g
          (g.completed = true) consumed) (.of a.world) := by
    rcases dispatch_cases env s a.line with ⟨_, hd⟩ | ⟨_, _, hd⟩
    · have hhandle : s.handle env (.parse a.line) = s.handle env ⟨.stor, a.command.argument⟩ :=
        congrArg (s.handle env) (Arrival.command_eq hv)
      rw [hd, hhandle]
      have hstor := handleSTOR_storage (J := fun _ => True) (E := fun g => ¬s.Readable env g) hs (of_fresh a.world)
        a.command.argument (fun _ _ => trivial) fun _ _ h => h
      refine hstor.mono (fun _ _ h hready => ⟨h.answered hready, _, h⟩) fun _ h hready => ?_
      exact absurd hready h
    · rw [hd]
      exact ends_return hs (fun _ => trivial) fun hready => absurd rfl hready.1
  exact hdispatch.final (calls_describes _ me) (of_holds _) hready

lemma stor_restarted (hs : s.socket_ ≠ none) (hv : a.command.verb = .stor) (hmode : s.transferModeZ = true)
    (htargets : (s.storage env me a).targets ≠ []) : s.resume_position_ ≤ 0 := by
  by_contra hpos
  have hdispatch : Ends (calls fun _ => True) (s.dispatch env a.line) (fun _ g => g.targets = [])
    (fun g => g.targets = [])
      (.of a.world) := by
    rcases dispatch_cases env s a.line with ⟨_, hd⟩ | ⟨_, _, hd⟩
    · have hhandle : s.handle env (.parse a.line) = s.handle env ⟨.stor, a.command.argument⟩ :=
        congrArg (s.handle env) (Arrival.command_eq hv)
      rw [hd, hhandle]
      exact handleSTOR_restarted hs hmode (not_le.1 hpos) rfl a.command.argument
    · rw [hd]
      exact ends_return hs (fun _ => trivial) rfl
  exact htargets (hdispatch.final (calls_describes _ me) (of_holds _))

/-- RETR has sent all it makes of its file: it opened it, no read and no send fell short, and no read got
more than a `uInt` counts. -/
structure Compressed (env : Service) (me : SessionId) (s : Session) (a : Arrival) (c : Str) : Prop where
  connected : s.socket_ ≠ none
  mode : s.transferModeZ = true
  verb : a.command.verb = .retr
  file : ∀ l, a.world.fs.openRead (s.resolvePath a.world.fs a.command.argument) = .ok l →
    a.world.fs.node l = some (.regular c)
  completed : (s.storage env me a).completed = true
  read : (s.storage env me a).unread = false
  sent : (s.storage env me a).unsent = false
  counted : ∀ chunk ∈ (s.storage env me a).reads, chunk.length < 2 ^ 32

/-- STOR has opened a file, not a device, it has a stream to decompress, `data` comes in some chunks of the
size of its buffer at most, and no write fails. -/
structure Receives (env : Service) (me : SessionId) (s : Session) (a : Arrival) (data : Str) : Prop where
  connected : s.socket_ ≠ none
  mode : s.transferModeZ = true
  verb : a.command.verb = .stor
  opened : (s.storage env me a).targets ≠ []
  prepared : (s.storage env me a).prepared = true
  chunks : ∀ peer ∈ (s.storage env me a).peers, peer.orderly = true ∧ peer.chunks.flatten = data ∧
    ∀ chunk ∈ peer.chunks, chunk.length ≤ 8192
  written : (s.storage env me a).unwritten = false
  file : ∀ p ∈ (s.storage env me a).targets, (s.storage env me a).fs.node p.1 ≠ some .other

end Session

section RoundTrip

open Session

variable {env : Service} {d i : ZStream} {bound : ℕ → ℕ} {fuel : ℕ} {me you : SessionId} {s t : Session}
    {a b : Arrival} {c : Str}

theorem compressed_file_is_stored (hzlib : ZStream.Inverse d i bound) (hcoders : env.zlib = .ofStreams fuel d i)
    (hfuel : bound c.length < fuel ∧ c.length < fuel) (hretr : s.Compressed env me a c)
    (hstor : t.Receives env you b (s.storage env me a).sent) : (t.storage env you b).completed = true ∧
      ∃ l, (t.storage env you b).targets = [(l, .truncate)] ∧
        (t.storage env you b).fs.node l = some (.regular c) := by
  obtain ⟨l, c', hl, hc', hdelivers⟩ := (retr_fetch hretr.connected hretr.verb).done hretr.completed
  obtain rfl : c = c' := by simpa [hc'] using (hretr.file l hl).symm
  have hreads := hdelivers.reads hretr.mode
  have hlen : (s.storage env me a).reads.flatten.length ≤ c.length := hreads.length_le
  obtain ⟨whole, hdeflate, hinflate⟩ := hzlib.round_trip (hzlib.deflates.monotone hlen |>.trans_lt hfuel.1)
    (hlen.trans_lt hfuel.2)
    hretr.counted
  rw [← hcoders] at hdeflate hinflate
  obtain ⟨hfile, hsent⟩ : (s.storage env me a).reads.flatten = c ∧ whole = (s.storage env me a).sent := by
    rcases (hdelivers.compressed hretr.mode).2 hretr.read hretr.sent with hnone | ⟨hfile, hstream⟩
    · cases hnone.symm.trans hdeflate
    · exact ⟨hfile, Option.some.inj (hdeflate.symm.trans hstream)⟩
  have hstream : ∀ peer ∈ (t.storage env you b).peers, peer.orderly = true ∧
      Zlib.stream env.zlib.inflated [] peer.chunks = some c := by
    intro peer hpeer
    obtain ⟨horderly, hdata, hchunks⟩ := hstor.chunks peer hpeer
    refine ⟨horderly, ?_⟩
    rw [hinflate peer.chunks (hdata.trans hsent.symm) fun chunk h => (hchunks chunk h).trans_lt (by decide), hfile]
  have hready : t.Readable env (t.storage env you b) :=
    ⟨hstor.opened,
      fun _ => ⟨hstor.prepared, fun peer hpeer => ⟨(hstream peer hpeer).1, by rw [(hstream peer hpeer).2]; rfl⟩⟩⟩
  obtain ⟨hdone, consumed, hdeposit⟩ := stor_answered hstor.connected hstor.verb hready
  have hrestart := stor_restarted hstor.connected hstor.verb hstor.mode hstor.opened
  obtain ⟨peer, l', hpeers, htargets, _, _, hstored⟩ := hdeposit.replaced hdone hrestart hstor.written
  obtain ⟨horderly, hpeer⟩ := hstream peer (by rw [hpeers]; exact List.mem_singleton_self _)
  have hreceived : t.received env peer = c := by
    unfold received
    rw [if_pos hstor.mode, horderly, Zlib.plain_of_stream hpeer]
  refine ⟨hdone, l', htargets, ?_⟩
  rw [← hreceived]
  exact hstored (hstor.file (l', .truncate) (by rw [htargets]; exact List.mem_singleton_self _))

end RoundTrip

namespace ZStream

def sampleHeader : Str := [0x78, 0x9c]

def sampleBytes : Str → Str
  | [] => [0]
  | b :: u => 1 :: b :: sampleBytes u

def sampleFrame (u : Str) : Str :=
  sampleHeader ++ if u = [97] then [0x4b, 0x04, 0, 0, 0x62, 0, 0x62] else sampleBytes u

def sampleStrip : Str → Str
  | 1 :: b :: rest => b :: sampleStrip rest
  | _ => []

def sampleUnframe (v : Str) : Option Str :=
  let u := if v = sampleFrame [97] then [97] else sampleStrip (v.drop 2)
  if sampleFrame u = v then some u else none

abbrev sampleDeflate : ZStream where
  State := Str × Str
  init := ([], [])
  call q input finish room :=
    let rest := (if finish then sampleFrame q.1 else sampleHeader).drop q.2.length
    ⟨if finish = true ∧ rest.length ≤ room then .streamEnd else .ok, (q.1 ++ input, q.2 ++ rest.take room),
      input.length, rest.take room⟩

abbrev sampleInflate : ZStream where
  State := Str × Str
  init := ([], [])
  call q input _ room := match sampleUnframe (q.1 ++ input) with
    | some u =>
      let rest := u.drop q.2.length
      ⟨if rest.length ≤ room then .streamEnd else .ok, (q.1 ++ input, q.2 ++ rest.take room), input.length,
        rest.take room⟩
    | none => ⟨if input = [] then .bufError else .ok, (q.1 ++ input, q.2), input.length, []⟩

lemma sampleBytes_begins {u p : Str} (h : sampleBytes u <+: sampleBytes p) : u = p := by
  induction u generalizing p with
  | nil =>
    cases p with
    | nil => rfl
    | cons b p => exact absurd (List.cons_prefix_cons.1 h).1 (by decide)
  | cons a u ih =>
    cases p with
    | nil => exact absurd (List.cons_prefix_cons.1 h).1 (by decide)
    | cons b p =>
      obtain ⟨rfl, hrest⟩ := List.cons_prefix_cons.1 (List.cons_prefix_cons.1 h).2
      rw [ih hrest]

lemma sampleFrame_begins {u p : Str} (h : sampleFrame u <+: sampleFrame p) : u = p := by
  have hbody := (List.prefix_append_right_inj sampleHeader).1 h
  by_cases hu : u = [97]
  · rw [if_pos hu] at hbody
    by_cases hp : p = [97]
    · rw [hu, hp]
    · rw [if_neg hp] at hbody
      cases p with
      | nil => exact absurd (List.cons_prefix_cons.1 hbody).1 (by decide)
      | cons b p => exact absurd (List.cons_prefix_cons.1 hbody).1 (by decide)
  · rw [if_neg hu] at hbody
    by_cases hp : p = [97]
    · rw [if_pos hp] at hbody
      cases u with
      | nil => exact absurd (List.cons_prefix_cons.1 hbody).1 (by decide)
      | cons b u => exact absurd (List.cons_prefix_cons.1 hbody).1 (by decide)
    · rw [if_neg hp] at hbody
      exact sampleBytes_begins hbody

lemma sampleStrip_bytes (u : Str) : sampleStrip (sampleBytes u) = u := by
  induction u with
  | nil => rfl
  | cons b u ih => exact congrArg (b :: ·) ih

lemma sampleUnframe_frame (u : Str) : sampleUnframe (sampleFrame u) = some u := by
  have htext : (if sampleFrame u = sampleFrame [97] then [97] else sampleStrip ((sampleFrame u).drop 2)) = u := by
    by_cases hu : u = [97]
    · rw [hu, if_pos rfl]
    · have hother : sampleFrame u ≠ sampleFrame [97] := fun h => hu (sampleFrame_begins (h ▸ List.prefix_refl _))
      have hdrop : (sampleFrame u).drop 2 = sampleBytes u := by
        unfold sampleFrame
        rw [if_neg hu]
        rfl
      rw [if_neg hother, hdrop, sampleStrip_bytes]
  unfold sampleUnframe
  dsimp only
  rw [htext, if_pos rfl]

lemma sampleUnframe_begins {v u p : Str} (h : sampleUnframe v = some u) (hv : v <+: sampleFrame p) :
    u = p ∧ v = sampleFrame p := by
  have hframe : sampleFrame u = v := by
    unfold sampleUnframe at h
    generalize (if v = sampleFrame [97] then [97] else sampleStrip (v.drop 2)) = text at h
    obtain ⟨hframe, htext⟩ := Option.ite_none_right_eq_some.1 h
    rwa [Option.some.inj htext] at hframe
  obtain rfl := sampleFrame_begins (hframe ▸ hv)
  exact ⟨rfl, hframe.symm⟩

lemma prefix_take_drop {p w : Str} (h : p <+: w) (n : ℕ) : p ++ (w.drop p.length).take n <+: w := by
  obtain ⟨r, rfl⟩ := h
  rw [List.drop_left]
  exact (List.prefix_append_right_inj p).2 (List.take_prefix _ _)

lemma append_drop {p w : Str} (h : p <+: w) {n : ℕ} (hn : (w.drop p.length).length ≤ n) :
    p ++ (w.drop p.length).take n = w := by
  obtain ⟨r, rfl⟩ := h
  rw [List.take_of_length_le hn, List.drop_left]

lemma sampleHeader_begins (u : Str) : sampleHeader <+: sampleFrame u := List.prefix_append _ _

lemma sampleDeflate_spec {q : sampleDeflate.State} {taken made : Str} {finishing : Bool}
    (h : sampleDeflate.Deflating q taken made finishing) :
    q = (taken, made) ∧ (finishing = false → made <+: sampleHeader) ∧ made <+: sampleFrame taken := by
  induction h with
  | init => exact ⟨rfl, fun _ => List.nil_prefix, List.nil_prefix⟩
  | feed h input hroom ih =>
    obtain ⟨rfl, hheader, _⟩ := ih
    have hnext := prefix_take_drop (hheader rfl) ‹ℕ›
    refine ⟨?_, fun _ => hnext, hnext.trans (sampleHeader_begins _)⟩
    exact congrArg (Prod.mk · _) (congrArg _ (List.take_length (l := input)).symm)
  | finish h hroom hret ih =>
    obtain ⟨rfl, _, hframe⟩ := ih
    refine ⟨?_, fun h => (by cases h), prefix_take_drop hframe _⟩
    exact congrArg (Prod.mk · _) (List.append_nil _)

lemma length_sampleBytes (u : Str) : (sampleBytes u).length = 2 * u.length + 1 := by
  induction u with
  | nil => rfl
  | cons b u ih =>
    simp only [sampleBytes, List.length_cons, ih]
    omega

lemma length_sampleFrame (u : Str) : (sampleFrame u).length ≤ 2 * u.length + 9 := by
  have hheader : sampleHeader.length = 2 := rfl
  unfold sampleFrame
  rw [List.length_append, hheader]
  split
  · simp
  · rw [length_sampleBytes]
    omega

lemma sampleDeflate_deflates : sampleDeflate.Deflates fun n => 2 * n + 9 where
  feed_ret _ _ _ _ := .inl rfl
  feed_stops _ _ _ _ := .inl List.drop_length
  finish_ret {q} _ _ _ _ room _ := by
    by_cases hroom : ((sampleFrame q.1).drop q.2.length).length ≤ room
    · exact .inl (if_pos ⟨rfl, hroom⟩)
    · refine .inr ⟨.inl (if_neg fun h => hroom h.2), ?_⟩
      exact (List.length_take).trans (min_eq_left (not_le.1 hroom).le)
  bounded h := (sampleDeflate_spec h).2.2.length_le.trans (length_sampleFrame _)
  monotone _ _ h := by
    dsimp only
    omega

lemma sampleDeflate_deflated {taken made : Str} (h : sampleDeflate.Deflated taken made) :
    made = sampleFrame taken := by
  obtain ⟨q, made', finishing, room, hq, _, hret, rfl⟩ := h
  obtain ⟨rfl, _, hframe⟩ := sampleDeflate_spec hq
  have hroom : ((sampleFrame taken).drop made'.length).length ≤ room := by
    by_contra hroom
    have hok : (sampleDeflate.call (taken, made') [] true room).ret = .ok := if_neg fun h => hroom h.2
    cases hret.symm.trans hok
  exact append_drop hframe hroom

section Inflating

variable {q : sampleInflate.State} {plain taken made input : Str}

lemma sampleInflate_open (h : sampleUnframe (q.1 ++ input) = none) (finish : Bool) (room : ℕ) :
    sampleInflate.call q input finish room =
    ⟨if input = [] then .bufError else .ok, (q.1 ++ input, q.2), input.length, []⟩ := by
  dsimp only
  rw [h]

lemma sampleInflate_complete {u : Str} (h : sampleUnframe (q.1 ++ input) = some u) (finish : Bool) (room : ℕ) :
    sampleInflate.call q input finish room = ⟨if (u.drop q.2.length).length ≤ room then .streamEnd else .ok,
      (q.1 ++ input, q.2 ++ (u.drop q.2.length).take room), input.length, (u.drop q.2.length).take room⟩ := by
  dsimp only
  rw [h]

lemma sampleInflate_spec (h : sampleInflate.Inflating (sampleFrame plain) q taken made) :
    q = (taken, made) ∧ made <+: plain := by
  induction h with
  | init => exact ⟨rfl, List.nil_prefix⟩
  | call h hinput finish hroom ih =>
    obtain ⟨rfl, hmade⟩ := ih
    rename_i taken made input room
    cases hu : sampleUnframe (taken ++ input) with
    | none =>
      rw [sampleInflate_open hu]
      exact ⟨by rw [List.take_length, List.append_nil], by rwa [List.append_nil]⟩
    | some u =>
      rw [sampleInflate_complete hu]
      obtain ⟨rfl, _⟩ := sampleUnframe_begins hu hinput
      exact ⟨by rw [List.take_length], prefix_take_drop hmade room⟩

lemma sampleInflate_inflates (plain : Str) : sampleInflate.Inflates (sampleFrame plain) plain where
  ret {_ taken made} h {input} hinput finish {room} hroom := by
    obtain ⟨rfl, _⟩ := sampleInflate_spec h
    cases hu : sampleUnframe (taken ++ input) with
    | none =>
      rw [sampleInflate_open hu]
      refine .inr ⟨?_, .inl List.drop_length⟩
      by_cases hempty : input = []
      · exact .inr (if_pos hempty)
      · exact .inl (if_neg hempty)
    | some u =>
      rw [sampleInflate_complete hu]
      by_cases hrest : (u.drop made.length).length ≤ room
      · exact .inl (if_pos hrest)
      · exact .inr ⟨.inl (if_neg hrest), .inl List.drop_length⟩
  room_le {_ taken made} h {input} hinput finish {room} hroom := by
    obtain ⟨rfl, _⟩ := sampleInflate_spec h
    cases hu : sampleUnframe (taken ++ input) with
    | none =>
      rw [sampleInflate_open hu]
      exact Nat.zero_le _
    | some u =>
      rw [sampleInflate_complete hu]
      exact List.length_take_le _ _
  made_begins h := (sampleInflate_spec h).2
  at_end {_ taken made} h {input} hinput finish {room} hroom hret := by
    obtain ⟨rfl, hmade⟩ := sampleInflate_spec h
    cases hu : sampleUnframe (taken ++ input) with
    | none =>
      rw [sampleInflate_open hu] at hret
      dsimp only at hret
      split at hret <;> cases hret
    | some u =>
      rw [sampleInflate_complete hu] at hret ⊢
      obtain ⟨rfl, hwhole⟩ := sampleUnframe_begins hu hinput
      have hrest : (u.drop made.length).length ≤ room := by
        by_contra hrest
        cases (if_neg hrest : _ = ZCode.ok).symm.trans hret
      exact ⟨by rw [List.take_length, hwhole], append_drop hmade hrest⟩
  ends {_ taken made} h {input} hinput finish {room} hroom hout := by
    obtain ⟨rfl, _⟩ := sampleInflate_spec h
    have hu : sampleUnframe (taken ++ input) = some plain := by rw [hinput, sampleUnframe_frame]
    rw [sampleInflate_complete hu] at hout ⊢
    have hlen : min room (plain.drop made.length).length < room := List.length_take ▸ hout
    have hrest : (plain.drop made.length).length ≤ room := by omega
    exact if_pos hrest

end Inflating

lemma sample_inverse : Inverse sampleDeflate sampleInflate fun n => 2 * n + 9 where
  deflates := sampleDeflate_deflates
  inflates h := by
    rw [sampleDeflate_deflated h]
    exact sampleInflate_inflates _

def sampleService : Service := { Attested.sampleService with
  config_.transfer := { enable_compression := true }
  zlib := .ofStreams 16 sampleDeflate sampleInflate }

def sampleLine (line : String) : Arrival where
  world := .start ⟨[(["f"], .regular "a")], [], fun _ _ _ => none, []⟩ fun _ c => match c with
    | .connect _ _ _ => some ⟨[[0x78, 0x9c, 0x4b], [0x04, 0, 0, 0x62, 0, 0x62]], true, by decide⟩
    | c => c.favourable
  line := ascii line

def sampleLines : List Arrival := ["USER u", "PASS p", "MODE Z", "PORT 127,0,0,1,4,28"].map sampleLine

end ZStream

theorem compressed_file_is_stored_a :
    ∃ s : Session, (sessionSystem ZStream.sampleService 0).Reach System.anyStep s ∧
    (s.storage ZStream.sampleService 0 (ZStream.sampleLine "RETR f")).sent = [0x78, 0x9c, 0x4b, 0x04, 0, 0,
      0x62, 0, 0x62] ∧
      (s.storage ZStream.sampleService 0 (ZStream.sampleLine "STOR g")).completed = true ∧
        ∃ l, (s.storage ZStream.sampleService 0 (ZStream.sampleLine "STOR g")).targets = [(l, .truncate)] ∧
          (s.storage ZStream.sampleService 0 (ZStream.sampleLine "STOR g")).fs.node l = some (.regular "a") := by
  obtain ⟨s, hs, he⟩ := Option.map_eq_some_iff.1 (show
    ((sessionSystem ZStream.sampleService 0).run System.anyStep
      (.opened 3 false false) ZStream.sampleLines).map (fun s =>
      let g := s.storage ZStream.sampleService 0 (ZStream.sampleLine "RETR f")
      let g' := s.storage ZStream.sampleService 0 (ZStream.sampleLine "STOR g")
      (decide (s.socket_ ≠ none), s.transferModeZ,
        decide (g.completed = true ∧ g.unread = false ∧ g.unsent = false ∧
          g.sent = [0x78, 0x9c, 0x4b, 0x04, 0, 0, 0x62, 0, 0x62] ∧
          (∀ chunk ∈ g.reads, chunk.length < 2 ^ 32) ∧
          s.resolvePath (ZStream.sampleLine "RETR f").world.fs
            (ZStream.sampleLine "RETR f").command.argument = ascii "/f"),
        decide (g'.targets ≠ [] ∧ g'.prepared = true ∧ g'.unwritten = false ∧
          (∀ peer ∈ g'.peers, peer.orderly = true ∧ peer.chunks.flatten = [0x78, 0x9c, 0x4b, 0x04, 0, 0,
            0x62, 0, 0x62] ∧
            ∀ chunk ∈ peer.chunks, chunk.length ≤ 8192) ∧
          ∀ p ∈ g'.targets, g'.fs.node p.1 ≠ some .other))) = some (true, true, true, true) by decide +kernel)
  simp only [Prod.mk.injEq, decide_eq_true_eq] at he
  obtain ⟨hsocket, hmode, ⟨hdone, hread, hunsent, hsent, hcounted, hpath⟩, hopened, hprepared, hwritten,
    hchunks, hfile⟩ := he
  refine ⟨s, .run (.init ⟨_, _, _, rfl⟩) hs, hsent, ?_⟩
  have hretr : s.Compressed ZStream.sampleService 0 (ZStream.sampleLine "RETR f") "a" := by
    refine ⟨hsocket, hmode, by decide, fun l hl => ?_, hdone, hread, hunsent, hcounted⟩
    have hopen : (ZStream.sampleLine "RETR f").world.fs.openRead (ascii "/f") = .ok [ascii "f"] := by
      decide +kernel
    rw [hpath] at hl
    obtain rfl : [ascii "f"] = l := Except.ok.inj (hopen.symm.trans hl)
    rfl
  have hstor : s.Receives ZStream.sampleService 0 (ZStream.sampleLine "STOR g")
      (s.storage ZStream.sampleService 0 (ZStream.sampleLine "RETR f")).sent :=
    ⟨hsocket, hmode, by decide, hopened, hprepared, by rwa [hsent], hwritten, hfile⟩
  exact compressed_file_is_stored ZStream.sample_inverse rfl (by decide) hretr hstor

end SimpleSftpd
