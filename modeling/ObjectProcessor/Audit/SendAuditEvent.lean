import ObjectProcessor.Callback.Handler
import ObjectProcessor.Logging.MaskCrn

/-!
# Publishing audit events

An event is published with the address of the caller, or with that of the service where a
request names no usable one.  A process resolves its own address once.  A publisher that
rejects an event is logged, with the customer reference of the event masked.
-/

namespace ObjectProcessor

open Library

/-! ## Addresses -/

def MAX_IP_LENGTH : Nat := 20

/-- `text.trim()` -/
def trimSpaces (text : List Char) : List Char :=
  ((text.dropWhile Json.isSpace).reverse.dropWhile Json.isSpace).reverse

/-- An IPv4 address without its port.  An IPv6 address has several colons and none. -/
def withoutPort (address : List Char) : List Char :=
  if address.count ':' = 1 then address.takeWhile (· ≠ ':') else address

/-- The first entry of a list of addresses, without its zone and its port. -/
def bareAddress (raw : String) : List Char :=
  withoutPort ((trimSpaces (raw.toList.takeWhile (· ≠ ','))).takeWhile (· ≠ '%'))

def withinIpLength (ip : String) : String :=
  if ip = "" ∨ MAX_IP_LENGTH < Json.unitLength ip then "" else ip

/-- The bare address, or the empty text when there is none or it is too long. -/
def sanitiseIp (raw : Option String) : String :=
  withinIpLength (String.ofList (bareAddress (raw.getD "")))

inductive IpAddress where
  | ipv4 (first second third fourth : UInt8)
  | ipv6 (text : String)

def dotted (first second third fourth : UInt8) : String :=
  toString first.toNat ++ "." ++ toString second.toNat ++ "." ++ toString third.toNat ++ "." ++
    toString fourth.toNat

/-- An entry of `networkInterfaces()`. -/
structure NetworkInterface where
  address : IpAddress
  internal : Bool

def NetworkInterface.externalIpv4? (interface : NetworkInterface) : Option String :=
  match interface.address with
  | .ipv4 first second third fourth =>
      if interface.internal then none else some (dotted first second third fourth)
  | .ipv6 _ => none

/-- `getServiceIp`, given what is cached.  Reading the interfaces may throw. -/
def getServiceIp (cachedServiceIp : Option String)
    (interfaces : Option (List NetworkInterface)) : String :=
  match cachedServiceIp with
  | some ip => ip
  | none =>
      ((interfaces.getD []).findSome? NetworkInterface.externalIpv4?).getD
        (dotted 127 0 0 1)

/-- What of a request its audit events depend on. -/
structure AuditRequest where
  /-- The tracing header. -/
  requestId : Option String
  /-- `x-forwarded-for` -/
  forwardedFor : Option String
  remoteAddress : Option String
  deriving DecidableEq

/-- The address the request itself names, if it is usable. -/
def AuditRequest.ip? (request : AuditRequest) : Option String :=
  [sanitiseIp request.forwardedFor, sanitiseIp request.remoteAddress].find? fun ip => ip ≠ ""

/-- The address of an event, and what is cached afterwards. -/
def extractIp (cachedServiceIp : Option String) (interfaces : Option (List NetworkInterface))
    (request : Option AuditRequest) : String × Option String :=
  match request.bind AuditRequest.ip? with
  | some ip => (ip, cachedServiceIp)
  | none =>
      let ip := getServiceIp cachedServiceIp interfaces
      (ip, some ip)

/-- `MAX_REQUEST_ID_LENGTH` -/
def maxRequestIdLength : Nat := 50

/-- Whether a request is turned away before anything else looks at it. -/
def rejectOversizedRequestId (request : AuditRequest) : Bool :=
  request.requestId.any fun requestId => maxRequestIdLength < Json.unitLength requestId

/-! ## Events -/

structure AuditEntity where
  entity : String
  action : String
  entityid : Option Json
  deriving DecidableEq

structure AuditSecurity where
  pmccode : String
  priority : Nat
  message : String
  deriving DecidableEq

/-- What `sendAuditEvent` is given.  Without a correlation identifier the publisher
generates one. -/
structure AuditMessage where
  correlationid : Option String
  security : Option AuditSecurity
  entities : List AuditEntity
  accounts : AuditAccounts
  status : String
  details : List (String × Json)
  deriving DecidableEq

/-- `audit.accounts.crn`, as it is masked. -/
def AuditAccounts.crnValue (accounts : AuditAccounts) : CrnValue :=
  accounts.crn.elim .undefined fun crn => .text (codeUnits crn)

/-- How the interfaces read, and with which error the publisher rejects an event. -/
structure AuditEnv where
  interfaces : Option (List NetworkInterface)
  publishAuditEvent : AuditMessage → String → Option Text

/-- An event that was handed to the publisher. -/
structure SentAudit where
  request : Option AuditRequest
  message : AuditMessage
  ip : String
  rejection : Option Text
  /-- The reason the failure was logged with. -/
  logged : Option Text
  deriving DecidableEq

/-- `sendAuditEvent`, which never rejects: what it sends and logs, and what is cached. -/
def sendAuditEvent (env : AuditEnv) (cachedServiceIp : Option String)
    (request : Option AuditRequest) (message : AuditMessage) : SentAudit × Option String :=
  let (ip, cached) := extractIp cachedServiceIp env.interfaces request
  let rejection := env.publishAuditEvent message ip
  let logged := rejection.bind fun error => maskCrnInText (some error) message.accounts.crnValue
  ({ request, message, ip, rejection, logged }, cached)

/-- The events of one request or report, in their order. -/
def sendAuditEvents (env : AuditEnv) (request : Option AuditRequest) :
    Option String → List AuditMessage → List SentAudit × Option String
  | cached, [] => ([], cached)
  | cached, message :: rest =>
      let (sent, next) := sendAuditEvent env cached request message
      let (others, last) := sendAuditEvents env request next rest
      (sent :: others, last)

/-! ## Usable addresses -/

/-- What the audit schema asks of an address: one, and not too long. -/
structure UsableIp (ip : String) : Prop where
  nonempty : ip ≠ ""
  short : Json.unitLength ip ≤ MAX_IP_LENGTH
  single : ∀ char ∈ ip.toList, char ≠ ',' ∧ char ≠ '%'

theorem mem_of_mem_trimSpaces {char : Char} {text : List Char}
    (member : char ∈ trimSpaces text) : char ∈ text := by
  rw [trimSpaces, List.mem_reverse] at member
  have inner := (List.dropWhile_sublist _).subset member
  exact (List.dropWhile_sublist _).subset (List.mem_reverse.mp inner)

theorem bareAddress_single {raw : String} {char : Char} (member : char ∈ bareAddress raw) :
    char ≠ ',' ∧ char ≠ '%' := by
  have unzoned : char ∈ (trimSpaces (raw.toList.takeWhile (· ≠ ','))).takeWhile (· ≠ '%') := by
    unfold bareAddress withoutPort at member
    split at member
    · exact (List.takeWhile_sublist _).subset member
    · exact member
  have first := mem_of_mem_trimSpaces ((List.takeWhile_sublist _).subset unzoned)
  have noComma := List.mem_takeWhile_imp first
  have noZone := List.mem_takeWhile_imp unzoned
  exact ⟨of_decide_eq_true noComma, of_decide_eq_true noZone⟩

theorem sanitiseIp_usable {raw : Option String} (nonempty : sanitiseIp raw ≠ "") :
    UsableIp (sanitiseIp raw) := by
  unfold sanitiseIp withinIpLength at nonempty ⊢
  split
  · rename_i unusable
    exact absurd (if_pos unusable) nonempty
  · rename_i fits
    rw [not_or, Nat.not_lt] at fits
    refine ⟨fits.1, fits.2, fun char member => ?_⟩
    rw [String.toList_ofList] at member
    exact bareAddress_single member

theorem octet_digits (octet : UInt8) : (toString octet.toNat).length ≤ 3 ∧
    toString octet.toNat ≠ "" ∧ ∀ char ∈ (toString octet.toNat).toList, char.isDigit = true := by
  have written : (toString octet.toNat).toList = Nat.toDigits 10 octet.toNat := Nat.toList_repr
  have short : (Nat.toDigits 10 octet.toNat).length ≤ 3 :=
    (Nat.length_toDigits_le_iff (by decide) (by decide)).mpr
      (Nat.lt_trans octet.toNat_lt (by decide))
  refine ⟨by rwa [← String.length_toList, written], ?_, ?_⟩
  · intro empty
    have none := congrArg String.toList empty
    rw [written] at none
    exact absurd (congrArg List.length none) (Nat.ne_of_gt Nat.length_toDigits_pos)
  · rw [written]
    exact fun char member => Nat.isDigit_of_mem_toDigits (by decide) (by decide) member

/-- Four octets and three dots take fifteen characters at most. -/
theorem dotted_usable (first second third fourth : UInt8) :
    UsableIp (dotted first second third fourth) := by
  obtain ⟨one, some, firstDigits⟩ := octet_digits first
  obtain ⟨two, _, secondDigits⟩ := octet_digits second
  obtain ⟨three, _, thirdDigits⟩ := octet_digits third
  obtain ⟨four, _, fourthDigits⟩ := octet_digits fourth
  have chars : ∀ char ∈ (dotted first second third fourth).toList,
      char.isDigit = true ∨ char = '.' := by
    intro char member
    simp only [dotted, String.toList_append, List.mem_append] at member
    rcases member with (((((inFirst | dot) | inSecond) | dot) | inThird) | dot) | inFourth
    · exact Or.inl (firstDigits char inFirst)
    · exact Or.inr (by simpa using dot)
    · exact Or.inl (secondDigits char inSecond)
    · exact Or.inr (by simpa using dot)
    · exact Or.inl (thirdDigits char inThird)
    · exact Or.inr (by simpa using dot)
    · exact Or.inl (fourthDigits char inFourth)
  have code {char : Char} (member : char ∈ (dotted first second third fourth).toList) :
      46 ≤ char.toNat ∧ char.toNat ≤ 57 := by
    rcases chars char member with digit | rfl
    · have range := Char.isDigit_iff_toNat.mp digit
      exact ⟨Nat.le_trans (by decide) range.1, range.2⟩
    · decide
  constructor
  case nonempty =>
    intro empty
    have none := congrArg String.toList empty
    simp [dotted, String.toList_append] at none
  case short =>
    rw [Json.unitLength_eq_length fun char member =>
      Nat.lt_of_le_of_lt (code member).2 (by decide)]
    simp only [dotted, String.length_append]
    have dot : ".".length = 1 := rfl
    rw [dot, MAX_IP_LENGTH]
    omega
  case single =>
    intro char member
    refine ⟨?_, ?_⟩
    · rintro rfl
      exact absurd (code member).1 (by decide)
    · rintro rfl
      exact absurd (code member).1 (by decide)

theorem AuditRequest.ip?_usable {request : AuditRequest} {ip : String}
    (named : request.ip? = some ip) : UsableIp ip := by
  unfold AuditRequest.ip? at named
  have nonempty := List.find?_some named
  rw [decide_eq_true_eq] at nonempty
  have member := List.mem_of_find?_eq_some named
  simp only [List.mem_cons, List.not_mem_nil, or_false] at member
  rcases member with same | same
  · rw [same] at nonempty ⊢
    exact sanitiseIp_usable nonempty
  · rw [same] at nonempty ⊢
    exact sanitiseIp_usable nonempty

theorem getServiceIp_usable {cached : Option String} (usable : ∀ ip ∈ cached, UsableIp ip)
    (interfaces : Option (List NetworkInterface)) : UsableIp (getServiceIp cached interfaces) := by
  unfold getServiceIp
  split
  · exact usable _ rfl
  · cases found : (interfaces.getD []).findSome? NetworkInterface.externalIpv4? with
    | none =>
        rw [Option.getD_none]
        exact dotted_usable 127 0 0 1
    | some ip =>
        obtain ⟨interface, _, external⟩ := List.exists_of_findSome?_eq_some found
        unfold NetworkInterface.externalIpv4? at external
        split at external
        · split at external
          · cases external
          · cases external
            exact dotted_usable ..
        · cases external

/-- A sent event has the address its request names, or the one its process keeps. -/
structure Addressed (cached : Option String) (sent : SentAudit) : Prop where
  usable : UsableIp sent.ip
  origin : sent.request.bind AuditRequest.ip? = some sent.ip ∨
    sent.request.bind AuditRequest.ip? = none ∧ cached = some sent.ip
  masked : sent.logged = sent.rejection.bind fun error =>
    maskCrnInText (some error) sent.message.accounts.crnValue

theorem sendAuditEvent_addressed {cached : Option String} (usable : ∀ ip ∈ cached, UsableIp ip)
    (env : AuditEnv) (request : Option AuditRequest) (message : AuditMessage) :
    Addressed (sendAuditEvent env cached request message).2
        (sendAuditEvent env cached request message).1 ∧
      (∀ ip ∈ (sendAuditEvent env cached request message).2, UsableIp ip) ∧
      ∀ ip ∈ cached, (sendAuditEvent env cached request message).2 = some ip := by
  cases named : request.bind AuditRequest.ip? with
  | some ip =>
      obtain ⟨given, rfl, names⟩ := Option.bind_eq_some_iff.mp named
      simp only [sendAuditEvent, extractIp, named]
      exact ⟨⟨AuditRequest.ip?_usable names, Or.inl named, rfl⟩, usable, fun ip kept => kept⟩
  | none =>
      have resolved := getServiceIp_usable usable env.interfaces
      simp only [sendAuditEvent, extractIp, named]
      refine ⟨⟨resolved, Or.inr ⟨named, rfl⟩, rfl⟩, ?_, ?_⟩
      · rintro ip ⟨⟩
        exact resolved
      · rintro ip ⟨⟩
        rfl

/-- What the events of one request are: one for each message, and all addressed. -/
structure SentFor (request : Option AuditRequest) (messages : List AuditMessage)
    (cached last : Option String) (sent : List SentAudit) : Prop where
  messages : sent.map SentAudit.message = messages
  request : ∀ event ∈ sent, event.request = request
  addressed : ∀ event ∈ sent, Addressed last event
  usable : ∀ ip ∈ last, UsableIp ip
  kept : ∀ ip ∈ cached, last = some ip

theorem Addressed.kept {cached last : Option String} {sent : SentAudit}
    (addressed : Addressed cached sent) (kept : ∀ ip ∈ cached, last = some ip) :
    Addressed last sent :=
  ⟨addressed.usable, addressed.origin.imp_right fun ⟨unnamed, same⟩ => ⟨unnamed, kept _ same⟩,
    addressed.masked⟩

theorem sendAuditEvents_spec (env : AuditEnv) (request : Option AuditRequest)
    {cached : Option String} (usable : ∀ ip ∈ cached, UsableIp ip)
    (messages : List AuditMessage) :
    SentFor request messages cached (sendAuditEvents env request cached messages).2
      (sendAuditEvents env request cached messages).1 := by
  induction messages generalizing cached with
  | nil => exact ⟨rfl, by simp [sendAuditEvents], by simp [sendAuditEvents], usable, fun _ => id⟩
  | cons message rest ih =>
      obtain ⟨addressed, usableNext, keptNext⟩ :=
        sendAuditEvent_addressed usable env request message
      have others := ih usableNext
      simp only [sendAuditEvents]
      constructor
      case messages => rw [List.map_cons, others.messages]; rfl
      case request => exact List.forall_mem_cons.mpr ⟨rfl, others.request⟩
      case addressed =>
        exact List.forall_mem_cons.mpr ⟨addressed.kept others.kept, others.addressed⟩
      case usable => exact others.usable
      case kept => exact fun ip known => others.kept ip (keptNext ip known)

end ObjectProcessor
