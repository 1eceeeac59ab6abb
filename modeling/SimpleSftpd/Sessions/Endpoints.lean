import SimpleSftpd.Cxx.Fields
import SimpleSftpd.Sessions.ActiveMode

namespace SimpleSftpd

open Cxx Interaction Prog

def octetValue (part : Str) : Option ℕ := (unsigned part).filter (· ≤ 255)

def hostPort (address_port : Str) : Option (List ℕ) := (address_port.splitOn 44).mapM octetValue

abbrev InInt (n : Int) : Prop := -2 ^ 31 ≤ n ∧ n < 2 ^ 31

variable {part : Str} {parts : List Str} {n : ℕ} {ns : List ℕ}

lemma octetValue_eq_some (h : octetValue part = some n) : unsigned part = some n ∧ n ≤ 255 := by
  obtain ⟨hn, hle⟩ := Option.filter_eq_some_iff.1 h
  exact ⟨hn, of_decide_eq_true hle⟩

lemma octetValue_decimal (h : n ≤ 255) : octetValue (decimal n) = some n := by
  rw [octetValue, unsigned_decimal, Option.filter_some, if_pos (decide_eq_true h)]

lemma octetValue_ne_nil (h : octetValue part = some n) : part ≠ [] :=
  (unsigned_eq_some (octetValue_eq_some h).1).1.1

lemma stoi_octetValue (h : octetValue part = some n) : stoi part = some (n : Int) := by
  obtain ⟨hn, hle⟩ := octetValue_eq_some h
  exact stoi_unsigned hn (by omega)

lemma octets_read (h : parts.mapM octetValue = some ns) :
    (∀ part ∈ parts, part ≠ []) ∧ (∀ n ∈ ns, n ≤ 255) ∧ parts.mapM stoi = some (ns.map Int.ofNat) := by
  induction parts generalizing ns with
  | nil =>
    cases h
    exact ⟨nofun, nofun, rfl⟩
  | cons part parts ih =>
    rw [List.mapM_cons] at h
    obtain ⟨n, hn, h⟩ := Option.bind_eq_some_iff.1 h
    obtain ⟨ms, hms, h⟩ := Option.bind_eq_some_iff.1 h
    cases h
    obtain ⟨hne, hle, hstoi⟩ := ih hms
    refine ⟨List.forall_mem_cons.2 ⟨octetValue_ne_nil hn, hne⟩,
      List.forall_mem_cons.2 ⟨(octetValue_eq_some hn).2, hle⟩, ?_⟩
    rw [List.mapM_cons, stoi_octetValue hn, hstoi]
    rfl

lemma portParts_hostPort {a : Str} (h : hostPort a = some ns) :
    (∀ n ∈ ns, n ≤ 255) ∧ Session.portParts a = some (ns.map Int.ofNat) := by
  obtain ⟨hne, hle, hstoi⟩ := octets_read h
  refine ⟨hle, ?_⟩
  have htokens : tokens ',' a = a.splitOn 44 := (tokens_splitOn 44 a).trans (dropEmptyLast_of_ne_nil hne)
  rw [Session.portParts, htokens]
  exact hstoi

namespace Session

variable {s : Session} {me : SessionId} {w : World}

def adopt (s : Session) (stored : DataConnection) (text : Str) (f : DataConnection → DataConnection) :
    Io DataConnection := do
  let closed ← stored.closeDataSocket
  s.reply 200 text
  return f closed

lemma closeDataSocket_exec (me : SessionId) (stored : DataConnection) (w : World) : ∃ v,
    stored.closeDataSocket.exec (World.machine me) w =
      (.ok { stored with data_socket_ := none, passive_listen_socket_ := none }, v) := by
  rw [DataConnection.closeDataSocket]
  cases stored.data_socket_ <;> cases stored.passive_listen_socket_ <;> exact ⟨_, rfl⟩

lemma adopt_exec (s : Session) (me : SessionId) (w : World) (stored : DataConnection) (text : Str)
    (f : DataConnection → DataConnection) : ∃ w',
    (s.adopt stored text f).exec (World.machine me) w =
      (.ok (f { stored with data_socket_ := none, passive_listen_socket_ := none }), w') := by
  obtain ⟨v, hv⟩ := closeDataSocket_exec me stored w
  obtain ⟨w', hw', _⟩ := s.reply_exec me 200 text v
  refine ⟨w', ?_⟩
  rw [adopt, exec_bind, hv]
  dsimp only
  rw [exec_bind, hw']
  rfl

lemma adopt_answers (hs : s.socket_ ≠ none) (stored : DataConnection) (text : Str)
    (f : DataConnection → DataConnection) :
    Trace.answers ((s.adopt stored text f).calls (World.machine me) w) 200 = true := by
  have hclose : stored.closeDataSocket.Within (Kinds [.close]) fun _ => True :=
    DataConnection.closeDataSocket_within stored (List.mem_singleton.2 rfl) trivial
  obtain ⟨v, hv⟩ := closeDataSocket_exec me stored w
  rw [adopt, calls_bind, hv, Trace.answers_append, answers_of_within me hclose (by simp), Bool.false_or]
  dsimp only
  rw [calls_bind_pure, reply_answers me hs]
  rfl

lemma refused_answers (hs : s.socket_ ≠ none) {code : ℕ} (hcode : code ≠ 200) (text : Str) (d : DataConnection) :
    Trace.answers ((s.reply code text >>= fun _ => pure d).calls (World.machine me) w) 200 = false := by
  rw [calls_bind_pure, reply_answers me hs]
  exact decide_eq_false hcode

def storePort (d : DataConnection) (h1 h2 h3 h4 p1 p2 : Int) : DataConnection :=
  { d with active_mode_ip_ := dotted h1 h2 h3 h4, active_mode_port_ := wrapInt (wrapInt (p1 * 256) + p2) }

def enable (d : DataConnection) : DataConnection := { d with active_mode_enabled_ := true }

section

variable {a : Str} {h1 h2 h3 h4 p1 p2 : Int}

lemma storePort_port (hp : InInt (p1 * 256)) (hsum : InInt (p1 * 256 + p2)) (d : DataConnection) :
    (storePort d h1 h2 h3 h4 p1 p2).active_mode_port_ = p1 * 256 + p2 := by
  rw [storePort]
  dsimp only
  rw [wrapInt_eq hp.1 hp.2, wrapInt_eq hsum.1 hsum.2]

lemma handlePORT_accepted (hepsv : s.data.epsv_all_ = false) (hparts : portParts a = some [h1, h2, h3, h4, p1, p2])
    (hport : IsPort (storePort s.data h1 h2 h3 h4 p1 p2).active_mode_port_) :
    s.handlePORT a = s.adopt (storePort s.data h1 h2 h3 h4 p1 p2) "PORT command successful" enable := by
  have hrange : ¬(wrapInt (wrapInt (p1 * 256) + p2) < 1024 ∨ wrapInt (wrapInt (p1 * 256) + p2) > 65535) := by
    obtain ⟨hlow, hhigh⟩ : 1024 ≤ wrapInt (wrapInt (p1 * 256) + p2) ∧
      wrapInt (wrapInt (p1 * 256) + p2) ≤ 65535 := hport
    omega
  rw [handlePORT, if_neg (Bool.eq_false_iff.1 hepsv)]
  simp only [hparts, if_neg hrange]
  rfl

lemma handlePORT_refused (hs : s.socket_ ≠ none)
    (hrefused : ∀ h1 h2 h3 h4 p1 p2, portParts a = some [h1, h2, h3, h4, p1, p2] →
    ¬IsPort (storePort s.data h1 h2 h3 h4 p1 p2).active_mode_port_) :
    Trace.answers ((s.handlePORT a).calls (World.machine me) w) 200 = false := by
  rw [handlePORT]
  split
  · exact refused_answers hs (by decide) _ _
  · split
    · rename_i h1 h2 h3 h4 p1 p2 hparts
      have hport : ¬(1024 ≤ wrapInt (wrapInt (p1 * 256) + p2) ∧ wrapInt (wrapInt (p1 * 256) + p2) ≤ 65535) :=
        hrefused _ _ _ _ _ _ hparts
      have hrange : wrapInt (wrapInt (p1 * 256) + p2) < 1024 ∨ wrapInt (wrapInt (p1 * 256) + p2) > 65535 := by
        omega
      dsimp only
      rw [if_pos hrange]
      exact refused_answers hs (by decide) _ _
    · exact refused_answers hs (by decide) _ _

end

/-- PORT accepts six octets between commas that name a port from 1024 on, stores what they name,
and its arithmetic stays in the range of `int`. -/
structure ReadsPort (s : Session) (me : SessionId) (w : World) (argument : Str) : Prop where
  accepts : Trace.answers ((s.handlePORT argument).calls (World.machine me) w) 200 = true ↔
    ∃ h1 h2 h3 h4 p1 p2, hostPort argument = some [h1, h2, h3, h4, p1, p2] ∧ 1024 ≤ p1 * 256 + p2
  endpoint : ∀ h1 h2 h3 h4 p1 p2, hostPort argument = some [h1, h2, h3, h4, p1, p2] → 1024 ≤ p1 * 256 + p2 →
    ∃ d w', (s.handlePORT argument).exec (World.machine me) w = (.ok d, w') ∧
      d.active_mode_ip_ = decimal h1 ++ "." ++ decimal h2 ++ "." ++ decimal h3 ++ "." ++ decimal h4 ∧
      d.active_mode_port_ = p1 * 256 + p2
  arithmetic : ∀ h1 h2 h3 h4 p1 p2, portParts argument = some [h1, h2, h3, h4, p1, p2] →
    InInt (p1 * 256) ∧ InInt (p1 * 256 + p2)

section

variable {a : Str} {h1 h2 h3 h4 p1 p2 : ℕ}

lemma decimalInt_natCast (n : ℕ) : decimalInt n = decimal n := if_neg (by omega)

lemma hostPort_read (h : hostPort a = some [h1, h2, h3, h4, p1, p2]) :
    portParts a = some [(h1 : Int), (h2 : Int), (h3 : Int), (h4 : Int), (p1 : Int), (p2 : Int)] ∧ p1 ≤ 255 ∧
      p2 ≤ 255 := by
  obtain ⟨hle, hparts⟩ := portParts_hostPort h
  exact ⟨hparts, hle p1 (by simp), hle p2 (by simp)⟩

lemma handlePORT_octets (hepsv : s.data.epsv_all_ = false) (h : hostPort a = some [h1, h2, h3, h4, p1, p2])
    (hport : 1024 ≤ p1 * 256 + p2) :
    s.handlePORT a = s.adopt (storePort s.data h1 h2 h3 h4 p1 p2) "PORT command successful" enable ∧
      (storePort s.data h1 h2 h3 h4 p1 p2).active_mode_port_ = p1 * 256 + p2 := by
  obtain ⟨hparts, hp1, hp2⟩ := hostPort_read h
  have hstored : (storePort s.data h1 h2 h3 h4 p1 p2).active_mode_port_ = p1 * 256 + p2 :=
    storePort_port ⟨by omega, by omega⟩ ⟨by omega, by omega⟩ _
  refine ⟨handlePORT_accepted hepsv hparts ?_, hstored⟩
  rw [hstored]
  exact ⟨by omega, by omega⟩

end

end Session

theorem port_arguments_are_read {s : Session} (hs : s.socket_ ≠ none) (hepsv : s.data.epsv_all_ = false)
    (me : SessionId)
    (w : World) (argument : Str) : s.ReadsPort me w argument ↔
      ∀ h1 h2 h3 h4 p1 p2, Session.portParts argument = some [h1, h2, h3, h4, p1, p2] →
        InInt (p1 * 256) ∧ InInt (p1 * 256 + p2) ∧
          (IsPort (p1 * 256 + p2) → (hostPort argument).isSome = true) := by
  constructor
  · intro h h1 h2 h3 h4 p1 p2 hparts
    obtain ⟨hproduct, hsum⟩ := h.arithmetic _ _ _ _ _ _ hparts
    refine ⟨hproduct, hsum, fun hport => ?_⟩
    have haccepted := Session.handlePORT_accepted hepsv hparts (by rwa [Session.storePort_port hproduct hsum])
    have hanswers : Trace.answers ((s.handlePORT argument).calls (World.machine me) w) 200 = true := by
      rw [haccepted]
      exact Session.adopt_answers hs _ _ _
    obtain ⟨_, _, _, _, _, _, hread, _⟩ := h.accepts.1 hanswers
    exact Option.isSome_of_eq_some hread
  · intro h
    refine ⟨⟨fun hanswers => ?_, ?_⟩, ?_, fun h1 h2 h3 h4 p1 p2 hparts => ?_⟩
    · by_contra hno
      refine Bool.false_ne_true
        ((Session.handlePORT_refused hs fun h1 h2 h3 h4 p1 p2 hparts hport => ?_).symm.trans hanswers)
      obtain ⟨hproduct, hsum, hoctets⟩ := h _ _ _ _ _ _ hparts
      rw [Session.storePort_port hproduct hsum] at hport
      obtain ⟨ns, hns⟩ := Option.isSome_iff_exists.1 (hoctets hport)
      have hsame : [h1, h2, h3, h4, p1, p2] = ns.map Int.ofNat :=
        Option.some.inj (hparts.symm.trans (portParts_hostPort hns).2)
      obtain ⟨n1, n2, n3, n4, m1, m2, rfl⟩ : ∃ n1 n2 n3 n4 m1 m2, ns = [n1, n2, n3, n4, m1, m2] := by
        match ns, hsame with
        | [n1, n2, n3, n4, m1, m2], _ => exact ⟨n1, n2, n3, n4, m1, m2, rfl⟩
      simp only [List.map_cons, List.map_nil, List.cons.injEq, and_true] at hsame
      obtain ⟨_, _, _, _, rfl, rfl⟩ := hsame
      exact hno ⟨n1, n2, n3, n4, m1, m2, hns, Int.ofNat_le.1 hport.1⟩
    · rintro ⟨h1, h2, h3, h4, p1, p2, hread, hport⟩
      rw [(Session.handlePORT_octets hepsv hread hport).1]
      exact Session.adopt_answers hs _ _ _
    · intro h1 h2 h3 h4 p1 p2 hread hport
      obtain ⟨haccepted, hstored⟩ := Session.handlePORT_octets hepsv hread hport
      obtain ⟨w', hw'⟩ :=
        s.adopt_exec me w (Session.storePort s.data h1 h2 h3 h4 p1 p2) "PORT command successful" Session.enable
      rw [← haccepted] at hw'
      refine ⟨_, w', hw', ?_, hstored⟩
      change Session.dotted h1 h2 h3 h4 = _
      simp only [Session.dotted, Session.decimalInt_natCast]
    · obtain ⟨hproduct, hsum, _⟩ := h _ _ _ _ _ _ hparts
      exact ⟨hproduct, hsum⟩

theorem port_arguments_are_read_local :
    (Session.opened 3 false false).ReadsPort 0 (.favourable ⟨[], [], fun _ _ _ => none, []⟩)
    "127,0,0,1,4,28" := by
  refine (port_arguments_are_read (by decide) rfl _ _ _).2 fun h1 h2 h3 h4 p1 p2 hparts => ?_
  have hread : Session.portParts "127,0,0,1,4,28" = some [127, 0, 0, 1, 4, 28] := by decide +kernel
  obtain ⟨rfl, rfl, rfl, rfl, rfl, rfl, _⟩ : h1 = 127 ∧ h2 = 0 ∧ h3 = 0 ∧ h4 = 1 ∧ p1 = 4 ∧ p2 = 28 ∧ True := by
    simpa using Option.some.inj (hparts.symm.trans hread)
  exact ⟨by decide, by decide, fun _ => by decide +kernel⟩

def sampleHostPorts : List Str :=
  ["999,0,0,1,4,28", "-1,0,0,1,4,28", "127,0,0, 1,4,28", "127,0,0,1x,4,28", "127,0,0,1,0,1024", "127,0,0,1,4,28,"]

theorem port_arguments_are_not_read : sampleHostPorts.length = 6 ∧
    (∀ a ∈ sampleHostPorts,
      ¬(Session.opened 3 false false).ReadsPort 0 (.favourable ⟨[], [], fun _ _ _ => none, []⟩) a) ∧
    ¬(Session.opened 3 false false).ReadsPort 0 (.favourable ⟨[], [], fun _ _ _ => none, []⟩)
      "127,0,0,1,2147483647,0" := by
  refine ⟨rfl, fun a ha h => ?_, fun h => ?_⟩
  · have hall : ∀ a ∈ sampleHostPorts, hostPort a = none ∧
        Trace.answers (((Session.opened 3 false false).handlePORT a).calls (World.machine 0)
          (.favourable ⟨[], [], fun _ _ _ => none, []⟩))
          200 = true := by
      decide +kernel
    obtain ⟨hnone, hanswers⟩ := hall a ha
    obtain ⟨_, _, _, _, _, _, hread, _⟩ := h.accepts.1 hanswers
    cases hnone.symm.trans hread
  · have hparts : Session.portParts "127,0,0,1,2147483647,0" = some [127, 0, 0, 1, 2147483647, 0] := by
      decide +kernel
    obtain ⟨⟨_, hover⟩, _⟩ := h.arithmetic _ _ _ _ _ _ hparts
    exact absurd hover (by decide)

namespace Session

def portArgument (a b c d p : ℕ) : Str :=
  decimal a ++ "," ++ decimal b ++ "," ++ decimal c ++ "," ++ decimal d ++ "," ++ decimal
    (p / 256) ++ "," ++ decimal (p % 256)

def eprtArgument (x : Byte) (a b c d p : ℕ) : Str := x :: ("1" ++ x :: (dotted a b c d ++ x :: (decimal p ++ [x])))

section

variable {a b c d p : ℕ} {x : Byte}

lemma comma_notMem (n : ℕ) : (44 : Byte) ∉ decimal n := not_mem_decimal rfl n

lemma portArgument_splitOn : (portArgument a b c d p).splitOn 44 =
    [decimal a, decimal b, decimal c, decimal d, decimal (p / 256), decimal (p % 256)] := by
  have hshape : portArgument a b c d p =
      [44].intercalate [decimal a, decimal b, decimal c, decimal d, decimal (p / 256), decimal (p % 256)] := by
    simp only [List.intercalate_cons_cons, List.intercalate_singleton, portArgument, List.append_assoc]
    rfl
  rw [hshape]
  apply List.splitOn_intercalate
  · intro part hpart
    simp only [List.mem_cons, List.not_mem_nil, or_false] at hpart
    rcases hpart with rfl | rfl | rfl | rfl | rfl | rfl <;> exact comma_notMem _
  · exact List.cons_ne_nil _ _

lemma hostPort_portArgument (ha : a ≤ 255) (hb : b ≤ 255) (hc : c ≤ 255) (hd : d ≤ 255) (hp : p ≤ 65535) :
    hostPort (portArgument a b c d p) = some [a, b, c, d, p / 256, p % 256] := by
  have hhigh : p / 256 ≤ 255 := by omega
  have hlow : p % 256 ≤ 255 := by omega
  rw [hostPort, portArgument_splitOn]
  simp only [List.mapM_cons, List.mapM_nil, octetValue_decimal ha, octetValue_decimal hb, octetValue_decimal hc,
    octetValue_decimal hd, octetValue_decimal hhigh, octetValue_decimal hlow]
  rfl

lemma eprtFields_field {field rest : Str} (hx : x ∉ field) (token : Str) :
    eprtFields x token (field ++ x :: rest) = (token ++ field) :: eprtFields x [] rest := by
  induction field generalizing token with
  | nil => rw [List.nil_append, eprtFields, if_pos rfl, List.append_nil]
  | cons y field ih =>
    obtain ⟨hne, hx⟩ := not_or.1 fun h => hx (List.mem_cons.2 h)
    rw [List.cons_append, eprtFields, if_neg (Ne.symm hne), ih hx, List.append_assoc]
    rfl

lemma dotted_notMem (hx : digit 10 x = none) (hdot : x ≠ 46) (a b c d : ℕ) : x ∉ dotted a b c d := by
  have hdecimal (n : ℕ) : x ∉ decimal n := not_mem_decimal hx n
  have hsep : x ∉ ascii "." := fun hmem => hdot (List.mem_singleton.1 hmem)
  simp only [dotted, decimalInt_natCast, List.mem_append, not_or]
  exact ⟨⟨⟨⟨⟨⟨hdecimal _, hsep⟩, hdecimal _⟩, hsep⟩, hdecimal _⟩, hsep⟩, hdecimal _⟩

lemma eprtFields_eprtArgument (hx : digit 10 x = none) (hdot : x ≠ 46) :
    eprtFields x [] (eprtArgument x a b c d p).tail = [ascii "1", dotted a b c d, decimal p] := by
  have hone : x ∉ ascii "1" := by
    intro hmem
    obtain rfl := List.mem_singleton.1 hmem
    cases hx
  rw [eprtArgument, List.tail_cons, eprtFields_field hone, eprtFields_field (dotted_notMem hx hdot a b c d),
    eprtFields_field (not_mem_decimal hx p)]
  rfl

lemma length_decimal_pos (n : ℕ) : 0 < (decimal n).length := List.length_pos_iff.2 (decimal_ne_nil n)

lemma eprtArgument_length : 7 ≤ (eprtArgument x a b c d p).length := by
  have ha := length_decimal_pos a
  have hb := length_decimal_pos b
  have hc := length_decimal_pos c
  have hd := length_decimal_pos d
  simp only [eprtArgument, dotted, decimalInt_natCast, List.length_cons, List.length_append, List.length_nil]
  have hdot : (ascii ".").length = 1 := rfl
  omega

lemma handleEPRT_endpoint {s : Session} (hepsv : s.data.epsv_all_ = false) (hlow : 1024 ≤ p) (hhigh : p ≤ 65535)
    (hx : digit 10 x = none) (hdot : x ≠ 46) : s.handleEPRT (eprtArgument x a b c d p) =
      s.adopt s.data "EPRT command successful" fun closed =>
        { closed with
          active_mode_ip_ := dotted a b c d, active_mode_port_ := p, active_mode_enabled_ := true } := by
  have hlast : (eprtArgument x a b c d p).getLast? = some x := by
    have hend : eprtArgument x a b c d p = x :: ("1" ++ x :: (dotted a b c d ++ x :: decimal p)) ++ [x] := by
      simp only [eprtArgument, List.cons_append, List.append_assoc]
    rw [hend, List.getLast?_concat]
  have hport : ¬((p : Int) < 1024 ∨ (p : Int) > 65535) := by omega
  rw [handleEPRT, if_neg (Bool.eq_false_iff.1 hepsv), if_neg (not_lt.2 eprtArgument_length)]
  dsimp only
  rw [show (eprtArgument x a b c d p).headD 0 = x from rfl, if_neg (not_not.2 hlast),
    eprtFields_eprtArgument hx hdot]
  dsimp only
  rw [if_neg (not_not.2 rfl), stoi_decimal (by omega)]
  dsimp only
  rw [if_neg hport]
  rfl

end

end Session

theorem port_and_eprt_agree (env : Service) (s : Session) (hepsv : s.data.epsv_all_ = false)
    (me : SessionId) (w : World)
    {a b c d p : ℕ} (ha : a ≤ 255) (hb : b ≤ 255) (hc : c ≤ 255) (hd : d ≤ 255) (hlow : 1024 ≤ p)
    (hhigh : p ≤ 65535)
    {x : Byte} (hx : digit 10 x = none) (hdot : x ≠ 46) :
    ∃ s' w₁ w₂,
      (s.handle env ⟨.port, Session.portArgument a b c d p⟩).exec (World.machine me) w = (.ok s', w₁) ∧
      (s.handle env ⟨.eprt, Session.eprtArgument x a b c d p⟩).exec (World.machine me) w = (.ok s', w₂) ∧
      s'.data.active_mode_ip_ = Session.dotted a b c d ∧ s'.data.active_mode_port_ = p ∧
      s'.data.active_mode_enabled_ = true ∧
      (s.socket_ ≠ none →
        Trace.answers ((s.handle env ⟨.port, Session.portArgument a b c d p⟩).calls (World.machine me) w) 200 =
          true ∧
        Trace.answers ((s.handle env ⟨.eprt, Session.eprtArgument x a b c d p⟩).calls (World.machine me) w) 200 =
          true) := by
  have hread := Session.hostPort_portArgument ha hb hc hd hhigh
  have hnumber : p / 256 * 256 + p % 256 = p := by omega
  obtain ⟨hport, hstored⟩ := Session.handlePORT_octets hepsv hread (by omega)
  have heprt := Session.handleEPRT_endpoint (a := a) (b := b) (c := c) (d := d) hepsv hlow hhigh hx hdot
  let stored := Session.storePort s.data a b c d (p / 256 : ℕ) (p % 256 : ℕ)
  let adopted : DataConnection :=
    Session.enable { stored with data_socket_ := none, passive_listen_socket_ := none }
  have hsame : adopted = { { s.data with data_socket_ := none, passive_listen_socket_ := none } with
      active_mode_ip_ := Session.dotted a b c d, active_mode_port_ := p, active_mode_enabled_ := true } := by
    have hp : stored.active_mode_port_ = p := by
      rw [hstored]
      exact_mod_cast hnumber
    change ({ stored with data_socket_ := none, passive_listen_socket_ := none, active_mode_enabled_ :=
      true } : DataConnection) = _
    rw [hp]
    rfl
  obtain ⟨w₁, hw₁⟩ := s.adopt_exec me w stored "PORT command successful" Session.enable
  obtain ⟨w₂, hw₂⟩ := s.adopt_exec me w s.data "EPRT command successful" fun closed =>
    { closed with active_mode_ip_ := Session.dotted a b c d, active_mode_port_ := p, active_mode_enabled_ := true }
  rw [← hport] at hw₁
  rw [← heprt, ← hsame] at hw₂
  refine ⟨{ s with data := adopted }, w₁, w₂, ?_, ?_, rfl, by rw [hsame], rfl, fun hs => ⟨?_, ?_⟩⟩
  · rw [Session.handle, exec_bind, hw₁]
    rfl
  · rw [Session.handle, exec_bind, hw₂]
    rfl
  · rw [Session.handle, calls_bind_pure, hport]
    exact Session.adopt_answers hs _ _ _
  · rw [Session.handle, calls_bind_pure, heprt]
    exact Session.adopt_answers hs _ _ _

theorem port_and_eprt_agree_local : ∃ s' w₁ w₂,
    ((Session.opened 3 false false).handle (.standard [] []) ⟨.port, "127,0,0,1,4,28"⟩).exec (World.machine 0)
      (.favourable ⟨[], [], fun _ _ _ => none, []⟩) = (.ok s', w₁) ∧
    ((Session.opened 3 false false).handle (.standard [] []) ⟨.eprt, "|1|127.0.0.1|1052|"⟩).exec (World.machine 0)
      (.favourable ⟨[], [], fun _ _ _ => none, []⟩) = (.ok s', w₂) ∧
    s'.data.active_mode_ip_ = "127.0.0.1" ∧ s'.data.active_mode_port_ = 1052 := by
  have hport : Session.portArgument 127 0 0 1 1052 = "127,0,0,1,4,28" := by decide +kernel
  have heprt : Session.eprtArgument 124 127 0 0 1 1052 = "|1|127.0.0.1|1052|" := by decide +kernel
  have hdotted : Session.dotted (127 : ℕ) (0 : ℕ) (0 : ℕ) (1 : ℕ) = "127.0.0.1" := by decide +kernel
  obtain ⟨s', w₁, w₂, h₁, h₂, hip, hp, _⟩ :=
    port_and_eprt_agree (.standard [] []) (Session.opened 3 false false) rfl 0
    (.favourable ⟨[], [], fun _ _ _ => none, []⟩) (a := 127) (b := 0) (c := 0) (d := 1) (p :=
      1052) (by decide) (by decide)
    (by decide) (by decide) (by decide) (by decide) (x := 124) (by decide) (by decide)
  rw [hport] at h₁
  rw [heprt] at h₂
  rw [hdotted] at hip
  exact ⟨s', w₁, w₂, h₁, h₂, hip, hp⟩

end SimpleSftpd
