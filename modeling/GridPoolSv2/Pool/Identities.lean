import GridPoolSv2.Payout.Distribution
import GridPoolSv2.Pool.GridPool

/-!
# Pool.Identities: two readings of one `user_identity`

In GridPool mode an open handler reads the `user_identity` of its request twice.
`PayoutMode::try_from` splits it at every `/` and takes the text before the first `.`;
`resolve_channel` trims it, knows one prefix, and else takes the text before the first `.`.
The second decides whom the channel's jobs pay.

* The texts: `upTo_append`, `splitOn_eq_cons`, `trim_append`: how cutting, splitting and
  trimming work on a text that begins with a known part.
* `AddressLaws`: what the two readings know of the address parser they share.
* `resolveChannel_pays_iff`: the two agree on the address unless the identity is a partial
  donation, of which `resolve_channel` knows nothing: it pays the fallback address.
-/

namespace GridPoolSv2.Pool

open Consensus (Bytes)
open Payout (Text PayoutMode PayoutModeError upTo parseU8)

/-! ### Texts

The readings are built from three operations, each of which is followed through a text whose
beginning is known. -/

section Texts

variable {separator : Char} {field more text first second : Text} {rest : List Text}

/-- A text that a field of a split text is followed by: it is empty or begins with the separator. -/
def EndsField (separator : Char) (more : Text) : Prop :=
  ∀ c, more.head? = some c → c = separator

theorem upTo_append (hfield : separator ∉ field) (hmore : EndsField separator more) :
    upTo separator (field ++ more) = field := by
  have hin : ∀ c ∈ field, decide (c ≠ separator) = true := fun c hc =>
    decide_eq_true fun h => hfield (h ▸ hc)
  have hout : more.takeWhile (· ≠ separator) = [] := by
    cases more with
    | nil => rfl
    | cons c more => simp [hmore c rfl]
  rw [upTo, List.takeWhile_append_of_pos hin, hout, List.append_nil]

/-- What has no separator stays before the cut. -/
theorem upTo_append_eq (hfield : ∀ c ∈ field, c ≠ separator) (text : Text) :
    ∃ behind, upTo separator (field ++ text) = field ++ behind := by
  refine ⟨text.takeWhile (· ≠ separator), ?_⟩
  rw [upTo, List.takeWhile_append_of_pos fun c hc => decide_eq_true (hfield c hc)]

/-- Cutting ends at the separator or at the end of the text. -/
theorem eq_upTo_append (separator : Char) (text : Text) :
    ∃ more, text = upTo separator text ++ more ∧ EndsField separator more := by
  refine ⟨text.dropWhile (· ≠ separator), List.takeWhile_append_dropWhile.symm, fun c hc => ?_⟩
  have hstop := List.head?_dropWhile_not (· ≠ separator) text
  rw [hc] at hstop
  simpa using hstop

/-- What a split text begins with. -/
theorem splitOn_eq_cons (h : text.splitOn separator = first :: rest) :
    ∃ more, text = first ++ more ∧ separator ∉ first ∧ EndsField separator more := by
  by_cases hmem : separator ∈ text
  · obtain ⟨before, after, rfl, hbefore⟩ := List.eq_append_cons_of_mem hmem
    rw [List.splitOn_append_cons_self_of_not_mem hbefore] at h
    obtain ⟨rfl, _⟩ := List.cons.inj h
    exact ⟨separator :: after, rfl, hbefore, fun c hc => (Option.some.inj hc).symm⟩
  · rw [List.splitOn_eq_singleton hmem] at h
    obtain ⟨rfl, _⟩ := List.cons.inj h
    exact ⟨[], (List.append_nil _).symm, hmem, nofun⟩

theorem splitOn_eq_cons_cons (h : text.splitOn separator = first :: second :: rest) :
    ∃ tail, text = first ++ separator :: tail ∧ tail.splitOn separator = second :: rest := by
  by_cases hmem : separator ∈ text
  · obtain ⟨before, after, rfl, hbefore⟩ := List.eq_append_cons_of_mem hmem
    rw [List.splitOn_append_cons_self_of_not_mem hbefore] at h
    obtain ⟨rfl, hrest⟩ := List.cons.inj h
    exact ⟨after, rfl, hrest⟩
  · rw [List.splitOn_eq_singleton hmem] at h
    cases (List.cons.inj h).2

theorem dropWhile_isWhitespace_append (hne : field ≠ [])
    (hplain : ∀ c ∈ field, isWhitespace c = false) (more : Text) :
    (field ++ more).dropWhile isWhitespace = field ++ more := by
  cases field with
  | nil => exact absurd rfl hne
  | cons c field => simp [hplain c (by simp)]

/-- Trimming takes away from what follows a part without whitespace, and from its end only. -/
theorem trim_append (hne : field ≠ []) (hplain : ∀ c ∈ field, isWhitespace c = false)
    (more : Text) : ∃ kept, trim (field ++ more) = field ++ kept ∧ kept <+: more := by
  have hback : (more.reverse ++ field.reverse).dropWhile isWhitespace =
      more.reverse.dropWhile isWhitespace ++ field.reverse := by
    have hfield := dropWhile_isWhitespace_append (List.reverse_ne_nil_iff.mpr hne)
      (fun c hc => hplain c (List.mem_reverse.mp hc)) []
    rw [List.append_nil] at hfield
    rw [List.dropWhile_append]
    split
    · rename_i hempty
      rw [hfield, List.isEmpty_iff.mp hempty, List.nil_append]
    · rfl
  refine ⟨(more.reverse.dropWhile isWhitespace).reverse, ?_, ?_⟩
  · rw [trim, dropWhile_isWhitespace_append hne hplain, List.reverse_append, hback,
      List.reverse_append, List.reverse_reverse]
  · rw [← List.reverse_suffix, List.reverse_reverse]
    exact List.dropWhile_suffix _

/-- What follows a field may be cut off behind. -/
theorem EndsField.of_prefix {kept : Text} (hmore : EndsField separator more)
    (hkept : kept <+: more) : EndsField separator kept := by
  obtain ⟨lost, rfl⟩ := hkept
  intro c hc
  refine hmore c ?_
  rw [List.head?_append, hc]
  rfl

end Texts

/-! ### Addresses

An address has neither a slash nor a dot nor white space in it. Both readings rely on this. -/

/-- What is known of the parser of addresses. `resolve_channel` also requires the network of the
work selection. -/
structure AddressLaws (scriptFromAddress : Text → Except String Bytes) (read : AddressReader) :
    Prop where
  /-- Both readings use the same parser. -/
  same : ∀ network address script, read network address = .ok script →
    ∃ script, scriptFromAddress address = .ok script
  /-- The human-readable part of a segwit address, or the digit its version byte gives. -/
  looks : ∀ address script, scriptFromAddress address = .ok script →
    looksLikeAddress address = true
  /-- An address has letters and digits only. -/
  plain : ∀ address script, scriptFromAddress address = .ok script → ∀ c ∈ address,
    c ≠ '/' ∧ c ≠ '.' ∧ isWhitespace c = false

section Resolve

variable {scriptFromAddress : Text → Except String Bytes} {read : AddressReader}

theorem AddressLaws.ne_nil (law : AddressLaws scriptFromAddress read) {address : Text}
    {script : Bytes} (h : scriptFromAddress address = .ok script) : address ≠ [] := by
  intro hnil
  have hlooks := law.looks address script h
  rw [hnil] at hlooks
  cases hlooks

theorem AddressLaws.not_slash (law : AddressLaws scriptFromAddress read) {address : Text}
    {script : Bytes} (h : scriptFromAddress address = .ok script) : '/' ∉ address :=
  fun hc => (law.plain address script h _ hc).1 rfl

/-- A text that is cut out of the identity and reads as an address is the address of the channel, or
the channel is refused. -/
theorem resolved_eq_of_explicit (law : AddressLaws scriptFromAddress read) {address network : Text}
    {script : Bytes} (haddress : scriptFromAddress address = .ok script) {own other : ChannelPayout}
    (hown : own.payoutAddress = address) {payout : ChannelPayout}
    (h : (match parseAddress read address network with
      | .ok _ => .ok own
      | .error e => if looksLikeAddress address then .error e else .ok other :
        Except String ChannelPayout) = .ok payout) : payout.payoutAddress = address := by
  split at h
  · rw [← Except.ok.inj h, hown]
  · rw [if_pos (law.looks address script haddress)] at h
    cases h

/-- A check of the characters of a text, one after the other. -/
theorem chars_of_all {p : Char → Prop} [DecidablePred p] {text : Text}
    (h : (text.all fun c => decide (p c)) = true) : ∀ c ∈ text, p c :=
  fun c hc => of_decide_eq_true (List.all_eq_true.mp h c hc)

/-- The prefix that `resolve_channel` knows. -/
def soloPrefix : Text := "sri/solo/".toList

/-- The prefix has neither white space nor a dot. -/
theorem soloPrefix_plain : ∀ c ∈ soloPrefix, isWhitespace c = false ∧ c ≠ '.' :=
  chars_of_all (by decide)

theorem soloPrefix_eq : soloPrefix = "sri".toList ++ '/' :: ("solo".toList ++ ['/']) := by decide

theorem slash_mem_soloPrefix : '/' ∈ soloPrefix := by decide

/-- The identity `sri/solo/<address>/...`. -/
theorem resolveChannel_solo (law : AddressLaws scriptFromAddress read) (g : GridPoolClient)
    {identity address : Text} {rest : List Text} {script : Bytes} {payout : ChannelPayout}
    (hsplit : identity.splitOn '/' = "sri".toList :: "solo".toList :: address :: rest)
    (haddress : scriptFromAddress address = .ok script)
    (hresolve : g.resolveChannel read identity = .ok payout) :
    payout.payoutAddress = address := by
  obtain ⟨tail₁, rfl, hsplit₁⟩ := splitOn_eq_cons_cons hsplit
  obtain ⟨tail₂, rfl, hsplit₂⟩ := splitOn_eq_cons_cons hsplit₁
  obtain ⟨more, rfl, hslash, hmore⟩ := splitOn_eq_cons hsplit₂
  have hplain : ∀ c ∈ soloPrefix ++ address, isWhitespace c = false := by
    intro c hc
    rcases List.mem_append.mp hc with hc | hc
    · exact (soloPrefix_plain c hc).1
    · exact (law.plain address script haddress c hc).2.2
  have hne : soloPrefix ++ address ≠ [] :=
    List.append_ne_nil_of_left_ne_nil (List.ne_nil_of_mem slash_mem_soloPrefix) address
  obtain ⟨kept, htrim, hkept⟩ := trim_append hne hplain more
  -- the trimmed identity still has the prefix, and the address after it
  have hidentity : "sri".toList ++ '/' :: ("solo".toList ++ '/' :: (address ++ more)) =
      soloPrefix ++ address ++ more := by
    rw [soloPrefix_eq]
    simp only [List.append_assoc, List.cons_append, List.nil_append]
  have hcut : upTo '/' (address ++ kept) = address :=
    upTo_append hslash (hmore.of_prefix hkept)
  rw [hidentity] at hresolve
  unfold GridPoolClient.resolveChannel at hresolve
  rw [htrim, List.append_assoc] at hresolve
  have hstarts : soloPrefix.isPrefixOf (soloPrefix ++ (address ++ kept)) = true := by
    rw [List.isPrefixOf_iff_prefix]
    exact List.prefix_append _ _
  rw [show "sri/solo/".toList = soloPrefix from rfl] at hresolve
  simp only [hstarts, if_true, List.drop_left, hcut] at hresolve
  exact resolved_eq_of_explicit law haddress rfl hresolve

/-- The identity `<address>` or `<address>.<worker>`. -/
theorem resolveChannel_legacySolo (law : AddressLaws scriptFromAddress read) (g : GridPoolClient)
    {identity : Text} {script : Bytes} {payout : ChannelPayout}
    (haddress : scriptFromAddress (upTo '.' identity) = .ok script)
    (hresolve : g.resolveChannel read identity = .ok payout) :
    payout.payoutAddress = upTo '.' identity := by
  obtain ⟨more, hidentity, hmore⟩ := eq_upTo_append '.' identity
  generalize upTo '.' identity = address at *
  subst hidentity
  have hdot : '.' ∉ address := fun hc => (law.plain address script haddress _ hc).2.1 rfl
  obtain ⟨kept, htrim, hkept⟩ := trim_append (law.ne_nil haddress)
    (fun c hc => (law.plain address script haddress c hc).2.2) more
  have hcut : upTo '.' (address ++ kept) = address := upTo_append hdot (hmore.of_prefix hkept)
  -- an identity with the prefix of the other form would have a slash before its first dot
  have hstarts : soloPrefix.isPrefixOf (address ++ kept) = false := by
    by_contra h
    rw [Bool.not_eq_false, List.isPrefixOf_iff_prefix] at h
    obtain ⟨tail, htail⟩ := h
    obtain ⟨behind, hbehind⟩ := upTo_append_eq (fun c hc => (soloPrefix_plain c hc).2) tail
    rw [htail, hcut] at hbehind
    refine law.not_slash haddress ?_
    rw [hbehind]
    exact List.mem_append_left _ slash_mem_soloPrefix
  unfold GridPoolClient.resolveChannel at hresolve
  rw [htrim, show "sri/solo/".toList = soloPrefix from rfl] at hresolve
  simp only [hstarts, Bool.false_eq_true, if_false, hcut] at hresolve
  exact resolved_eq_of_explicit law haddress rfl hresolve

/-! ### Partial donations -/

/-- What a partial donation begins with. -/
def donatePrefix : Text := "sri/donate/".toList

theorem donatePrefix_eq :
    donatePrefix = "sri".toList ++ '/' :: ("donate".toList ++ ['/']) := by decide

theorem donatePrefix_chars :
    donatePrefix = ['s', 'r', 'i', '/', 'd', 'o', 'n', 'a', 't', 'e', '/'] := by decide

/-- No character of the prefix is white space or a dot. -/
theorem donatePrefix_plain : ∀ c ∈ donatePrefix, isWhitespace c = false ∧ c ≠ '.' :=
  chars_of_all (by decide)

theorem slash_mem_donatePrefix : '/' ∈ donatePrefix := by decide

theorem not_solo_of_donate (text : Text) : soloPrefix.isPrefixOf
    (donatePrefix ++ text) = false := by
  rw [donatePrefix_chars, show soloPrefix = ['s', 'r', 'i', '/', 's', 'o', 'l', 'o', '/'] by decide]
  rfl

theorem not_looksLikeAddress_donate (text : Text) : looksLikeAddress
    (donatePrefix ++ text) = false := by
  rw [donatePrefix_chars]
  rfl

/-- A partial donation names the miner's address. -/
theorem ofUserIdentity_donate (law : AddressLaws scriptFromAddress read)
    {identity percentage address : Text} {rest : List Text} {p : UInt8} {script : Bytes}
    (hsplit : identity.splitOn '/' =
      "sri".toList :: "donate".toList :: percentage :: address :: rest)
    (hp : parseU8 percentage = some p) (hrange : 1 ≤ p ∧ p < 100)
    (haddress : scriptFromAddress address = .ok script) :
    ∃ tail, identity = donatePrefix ++ tail ∧
      PayoutMode.ofUserIdentity scriptFromAddress identity =
        .ok (.donate p (String.ofList address) script) := by
  obtain ⟨tail₁, hidentity, hsplit₁⟩ := splitOn_eq_cons_cons hsplit
  obtain ⟨tail, rfl, _⟩ := splitOn_eq_cons_cons hsplit₁
  have hbegin : identity = donatePrefix ++ tail := by
    rw [hidentity, donatePrefix_eq]
    simp only [List.append_assoc, List.cons_append, List.nil_append]
  refine ⟨tail, hbegin, ?_⟩
  have hnonempty : identity.isEmpty = false := by
    rw [hbegin, donatePrefix_chars]
    rfl
  obtain ⟨behind, hbehind⟩ := upTo_append_eq (fun c hc => (donatePrefix_plain c hc).2) tail
  unfold PayoutMode.ofUserIdentity
  rw [hnonempty, hbegin, hbehind, ← hbegin, hsplit]
  cases hlegacy : scriptFromAddress (donatePrefix ++ behind) with
  | ok other =>
      -- the text before the first dot is tried as an address, and has a slash
      exact absurd (List.mem_append_left _ slash_mem_donatePrefix) (law.not_slash hlegacy)
  | error e => simp [hlegacy, hp, hrange, haddress]

/-- `resolve_channel` takes a partial donation for the name of a worker. -/
theorem resolveChannel_donate (law : AddressLaws scriptFromAddress read) (g : GridPoolClient)
    (tail : Text) :
    ∃ username, g.resolveChannel read (donatePrefix ++ tail) =
      .ok ⟨g.config.fallbackPayoutAddress, username⟩ := by
  obtain ⟨kept, htrim, _⟩ := trim_append (List.ne_nil_of_mem slash_mem_donatePrefix)
    (fun c hc => (donatePrefix_plain c hc).1) tail
  obtain ⟨behind, hbehind⟩ := upTo_append_eq (fun c hc => (donatePrefix_plain c hc).2) kept
  have hunread : ∃ e, parseAddress read (donatePrefix ++ behind) g.work.bitcoinNetwork =
    .error e := by
    cases hparse : parseAddress read (donatePrefix ++ behind) g.work.bitcoinNetwork with
    | error e => exact ⟨e, rfl⟩
    | ok script =>
        unfold parseAddress at hparse
        split at hparse
        · cases hparse
        · obtain ⟨_, hread⟩ := law.same _ _ _ hparse
          exact absurd (List.mem_append_left _ slash_mem_donatePrefix) (law.not_slash hread)
  obtain ⟨e, he⟩ := hunread
  unfold GridPoolClient.resolveChannel
  rw [htrim, show "sri/solo/".toList = soloPrefix from rfl]
  simp only [not_solo_of_donate, Bool.false_eq_true, if_false, hbehind, he,
    not_looksLikeAddress_donate]
  exact ⟨_, rfl⟩

/-- The identity is a partial donation with an address other than the fallback address. -/
def DonatesElsewhere (scriptFromAddress : Text → Except String Bytes) (fallback identity : Text) :
    Prop :=
  ∃ percentage address rest p script,
    identity.splitOn '/' = "sri".toList :: "donate".toList :: percentage :: address :: rest ∧
      parseU8 percentage = some p ∧ (1 ≤ p ∧ p < 100) ∧
      scriptFromAddress address = .ok script ∧ address ≠ fallback

/-- For every identity: that a resolved channel pays the address which the payout mode names,
exactly if the identity is no partial donation with another address than the fallback. -/
theorem resolveChannel_pays_iff (law : AddressLaws scriptFromAddress read) (g : GridPoolClient)
    (identity : Text) :
    (∀ mode address script payout,
        PayoutMode.ofUserIdentity scriptFromAddress identity = .ok mode →
        mode.minerPayout = some (address, script) →
        g.resolveChannel read identity = .ok payout →
        String.ofList payout.payoutAddress = address) ↔
      ¬ DonatesElsewhere scriptFromAddress g.config.fallbackPayoutAddress identity := by
  constructor
  · intro hagree hdonates
    obtain ⟨percentage, address, rest, p, script, hsplit, hp, hrange, haddress, hother⟩ := hdonates
    obtain ⟨tail, rfl, hmode⟩ := ofUserIdentity_donate law hsplit hp hrange haddress
    obtain ⟨username, hresolve⟩ := resolveChannel_donate law g tail
    exact hother (String.ofList_injective (hagree _ _ _ _ hmode rfl hresolve)).symm
  · intro hno mode address script payout hmode hminer hresolve
    have hnamed := PayoutMode.namedBy_of_ofUserIdentity hmode
    cases mode with
    | solo a s =>
        obtain ⟨text, rest, hsplit, ha, htext⟩ := hnamed
        obtain ⟨rfl, _⟩ := Prod.mk.inj (Option.some.inj hminer)
        rw [ha, resolveChannel_solo law g hsplit htext hresolve]
    | legacySolo a s =>
        obtain ⟨_, ha, htext⟩ := hnamed
        obtain ⟨rfl, _⟩ := Prod.mk.inj (Option.some.inj hminer)
        rw [ha, resolveChannel_legacySolo law g htext hresolve]
    | donate p a s =>
        obtain ⟨percentage, text, rest, hsplit, hp, hlow, hhigh, ha, htext⟩ := hnamed
        obtain ⟨rfl, _⟩ := Prod.mk.inj (Option.some.inj hminer)
        -- the only address a partial donation can be resolved to is the fallback
        have hfallback : text = g.config.fallbackPayoutAddress := by
          by_contra hother
          exact hno ⟨percentage, text, rest, p, s, hsplit, hp, ⟨hlow, hhigh⟩, htext, hother⟩
        obtain ⟨tail, rfl, _⟩ := ofUserIdentity_donate law hsplit hp ⟨hlow, hhigh⟩ htext
        obtain ⟨username, hresolve'⟩ := resolveChannel_donate law g tail
        rw [ha, hfallback, ← Except.ok.inj (hresolve'.symm.trans hresolve)]
    | fullDonation => cases hminer

end Resolve

/-! ### One address -/

/-- A reader that knows one mainnet address. -/
def readOneAddress (network : Network) (address : Text) : Except String Bytes :=
  if network = .bitcoin then Payout.oneAddress address else .error "wrong-network payout address"

theorem oneAddress_laws : AddressLaws Payout.oneAddress readOneAddress := by
  have hone : ∀ address script, Payout.oneAddress address = .ok script →
      address = "bc1qw508d6qejxtdg4y5r3zarvary0c5xw7kv8f3t4".toList := by
    intro address script h
    unfold Payout.oneAddress at h
    split at h
    · assumption
    · cases h
  refine ⟨fun network address script h => ?_, fun address script h => ?_,
    fun address script h => ?_⟩
  · unfold readOneAddress at h
    split at h
    · exact ⟨script, h⟩
    · cases h
  · rw [hone address script h]
    decide
  · rw [hone address script h]
    exact chars_of_all (by decide)

/-- A client on mainnet, with another fallback address. -/
def oneAddressClient : GridPoolClient where
  config :=
    { fallbackPayoutAddress := "bc1qrwsx8fs0l6z7ugp5cvzy6lhss7jlyru3kg9s8y".toList
      operatorFeeAddress := none
      operatorFee := false
      feeDuration := 0
      feeCycleSeconds := 1500 }
  token := []
  work := ⟨"mainnet".toList, none, []⟩
  lastTemplateTip := none

theorem resolveChannel_pays_iff_solo :
    (∀ mode address script payout,
        PayoutMode.ofUserIdentity Payout.oneAddress
          "sri/solo/bc1qw508d6qejxtdg4y5r3zarvary0c5xw7kv8f3t4/rig".toList = .ok mode →
        mode.minerPayout = some (address, script) →
        oneAddressClient.resolveChannel readOneAddress
          "sri/solo/bc1qw508d6qejxtdg4y5r3zarvary0c5xw7kv8f3t4/rig".toList = .ok payout →
        String.ofList payout.payoutAddress = address) ↔
      ¬ DonatesElsewhere Payout.oneAddress oneAddressClient.config.fallbackPayoutAddress
        "sri/solo/bc1qw508d6qejxtdg4y5r3zarvary0c5xw7kv8f3t4/rig".toList :=
  resolveChannel_pays_iff oneAddress_laws oneAddressClient _

/-- A tenth for the pool, the rest for the miner: the channel is opened, and pays the fallback. -/
theorem donation_pays_fallback :
    PayoutMode.ofUserIdentity Payout.oneAddress
        "sri/donate/10/bc1qw508d6qejxtdg4y5r3zarvary0c5xw7kv8f3t4/rig".toList =
        .ok (.donate 10 "bc1qw508d6qejxtdg4y5r3zarvary0c5xw7kv8f3t4" Payout.sampleScript) ∧
      oneAddressClient.resolveChannel readOneAddress
          "sri/donate/10/bc1qw508d6qejxtdg4y5r3zarvary0c5xw7kv8f3t4/rig".toList =
        .ok ⟨"bc1qrwsx8fs0l6z7ugp5cvzy6lhss7jlyru3kg9s8y".toList,
          "sri/donate/10/bc1qw508d6qejxtdg4y5r3zarvary0c5xw7kv8f3t4/rig".toList⟩ := by
  decide

end GridPoolSv2.Pool
