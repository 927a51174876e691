import Mathlib.Logic.Basic

/-!
# Event types and keys of the telemetry (`trc`)

Every event of the server has a type: a family (`EventType`) and a kind within the family (one
enumeration per family, `#[event_type]`). Its key-value pairs are named by `Key`. The binary
format of stored spans writes both as numbers: `EventType::code` and `Key::code` give the number
of each, `EventType::from_code` and `Key::from_code` read it back. Both directions are tables
written out by hand in `serializers/binary.rs`, the writing one a `match` on the type, the reading
one a `match` on the number.

The enumerations are those of `lib.rs`, with the variants in their order there. The writing
tables are the source's `match` arms, split by family. A reading table is a `match` on a number
whose arms are literals: the first arm whose literal is the number answers, and a number no arm
names gives `None`. It is the list of its arms in order (`fromCodeTable`), read by `List.lookup`.
-/

set_option autoImplicit false

namespace Stalwart.Trc

/-- `ServerEvent`. -/
inductive ServerEvent where
  | startup | shutdown | startupError | threadError | licensing
  deriving DecidableEq, Repr

/-- `PurgeEvent`. -/
inductive PurgeEvent where
  | started | finished | running | error | inProgress | autoExpunge | blobCleanup
  deriving DecidableEq, Repr

/-- `EvalEvent`. -/
inductive EvalEvent where
  | result | error | directoryNotFound | storeNotFound
  deriving DecidableEq, Repr

/-- `AcmeEvent`. -/
inductive AcmeEvent where
  | authStart | authPending | authValid | authCompleted | authError | authTooManyAttempts
  | processCert | orderStart | orderProcessing | orderCompleted | orderReady | orderValid
  | orderInvalid | renewBackoff | dnsRecordCreated | dnsRecordCreationFailed
  | dnsRecordDeletionFailed | dnsRecordNotPropagated | dnsRecordLookupFailed | dnsRecordPropagated
  | dnsRecordPropagationTimeout | clientSuppliedSni | clientMissingSni | tlsAlpnReceived
  | tlsAlpnError | tokenNotFound | error
  deriving DecidableEq, Repr

/-- `StoreEvent`. -/
inductive StoreEvent where
  | assertValueFailed | foundationdbError | mysqlError | postgresqlError | rocksdbError
  | sqliteError | ldapError | elasticsearchError | meilisearchError | redisError | s3Error
  | azureError | filesystemError | poolError | dataCorruption | decompressError | deserializeError
  | notFound | notConfigured | notSupported | unexpectedError | cryptoError | httpStoreError
  | cacheMiss | cacheHit | cacheStale | cacheUpdate | blobMissingMarker | dataWrite | dataIterate
  | blobRead | blobWrite | blobDelete | sqlQuery | ldapQuery | ldapWarning | httpStoreFetch
  deriving DecidableEq, Repr

/-- `MessageIngestEvent`. -/
inductive MessageIngestEvent where
  | ham | spam | imapAppend | jmapAppend | duplicate | error | ftsIndex
  deriving DecidableEq, Repr

/-- `JmapEvent`. -/
inductive JmapEvent where
  | methodCall | invalidArguments | requestTooLarge | stateMismatch | anchorNotFound
  | unsupportedFilter | unsupportedSort | unknownMethod | invalidResultReference | forbidden
  | accountNotFound | accountNotSupportedByMethod | accountReadOnly | notFound
  | cannotCalculateChanges | unknownDataType | unknownCapability | notJson | notRequest
  | websocketStart | websocketStop | websocketError
  deriving DecidableEq, Repr

/-- `ImapEvent`. -/
inductive ImapEvent where
  | connectionStart | connectionEnd | getAcl | setAcl | myRights | listRights | append
  | capabilities | id | close | copy | move | createMailbox | deleteMailbox | renameMailbox
  | enable | expunge | fetch | idleStart | idleStop | list | lsub | logout | «namespace» | noop
  | search | sort | select | status | store | subscribe | unsubscribe | thread | getQuota | error
  | rawInput | rawOutput
  deriving DecidableEq, Repr

/-- `ManageSieveEvent`. -/
inductive ManageSieveEvent where
  | connectionStart | connectionEnd | createScript | updateScript | getScript | deleteScript
  | renameScript | checkScript | haveSpace | listScripts | setActive | capabilities | startTls
  | unauthenticate | logout | noop | error | rawInput | rawOutput
  deriving DecidableEq, Repr

/-- `Pop3Event`. -/
inductive Pop3Event where
  | connectionStart | connectionEnd | delete | reset | quit | fetch | list | listMessage | uidl
  | uidlMessage | stat | noop | capabilities | startTls | utf8 | error | rawInput | rawOutput
  deriving DecidableEq, Repr

/-- `SmtpEvent`. -/
inductive SmtpEvent where
  | connectionStart | connectionEnd | error | idNotFound | concurrencyLimitExceeded
  | transferLimitExceeded | rateLimitExceeded | timeLimitExceeded | missingAuthDirectory
  | messageParseFailed | messageTooLarge | loopDetected | dkimPass | dkimFail | arcPass | arcFail
  | spfEhloPass | spfEhloFail | spfFromPass | spfFromFail | dmarcPass | dmarcFail | iprevPass
  | iprevFail | tooManyMessages | ehlo | invalidEhlo | didNotSayEhlo | ehloExpected | lhloExpected
  | mailFromUnauthenticated | mailFromUnauthorized | mailFromNotAllowed | mailFromRewritten
  | mailFromMissing | mailFrom | multipleMailFrom | mailboxDoesNotExist | relayNotAllowed | rcptTo
  | rcptToDuplicate | rcptToRewritten | rcptToMissing | rcptToGreylisted | tooManyRecipients
  | tooManyInvalidRcpt | rawInput | rawOutput | missingLocalHostname | vrfy | vrfyNotFound
  | vrfyDisabled | expn | expnNotFound | expnDisabled | requireTlsDisabled | deliverByDisabled
  | deliverByInvalid | futureReleaseDisabled | futureReleaseInvalid | mtPriorityDisabled
  | mtPriorityInvalid | dsnDisabled | authNotAllowed | authMechanismNotSupported
  | authExchangeTooLong | alreadyAuthenticated | noop | startTls | startTlsUnavailable
  | startTlsAlready | rset | quit | help | commandNotImplemented | invalidCommand
  | invalidSenderAddress | invalidRecipientAddress | invalidParameter | unsupportedParameter
  | syntaxError | requestTooLarge
  deriving DecidableEq, Repr

/-- `HttpEvent`. -/
inductive HttpEvent where
  | connectionStart | connectionEnd | error | requestUrl | requestBody | responseBody
  | xForwardedMissing
  deriving DecidableEq, Repr

/-- `NetworkEvent`. -/
inductive NetworkEvent where
  | listenStart | listenStop | listenError | bindError | readError | writeError | flushError
  | acceptError | splitError | timeout | closed | proxyError | setOptError
  deriving DecidableEq, Repr

/-- `LimitEvent`. -/
inductive LimitEvent where
  | sizeRequest | sizeUpload | callsIn | concurrentRequest | concurrentUpload
  | concurrentConnection | quota | blobQuota | tenantQuota | tooManyRequests
  deriving DecidableEq, Repr

/-- `ManageEvent`. -/
inductive ManageEvent where
  | missingParameter | alreadyExists | assertFailed | notFound | notSupported | error
  deriving DecidableEq, Repr

/-- `AuthEvent`. -/
inductive AuthEvent where
  | success | failed | tokenExpired | missingTotp | tooManyAttempts | clientRegistration | error
  deriving DecidableEq, Repr

/-- `ConfigEvent`. -/
inductive ConfigEvent where
  | parseError | buildError | macroError | writeError | fetchError | defaultApplied
  | missingSetting | unusedSetting | parseWarning | buildWarning | importExternal | alreadyUpToDate
  deriving DecidableEq, Repr

/-- `ResourceEvent`. -/
inductive ResourceEvent where
  | notFound | badParameters | error | downloadExternal | webadminUnpacked
  deriving DecidableEq, Repr

/-- `ArcEvent`. -/
inductive ArcEvent where
  | chainTooLong | invalidInstance | invalidCv | hasHeaderTag | brokenChain | sealerNotFound
  deriving DecidableEq, Repr

/-- `DkimEvent`. -/
inductive DkimEvent where
  | pass | neutral | fail | permError | tempError | none | unsupportedVersion
  | unsupportedAlgorithm | unsupportedCanonicalization | unsupportedKeyType | failedBodyHashMatch
  | failedVerification | failedAuidMatch | revokedPublicKey | incompatibleAlgorithms
  | signatureExpired | signatureLength | signerNotFound
  deriving DecidableEq, Repr

/-- `DmarcEvent`. -/
inductive DmarcEvent where
  | pass | fail | permError | tempError | none
  deriving DecidableEq, Repr

/-- `IprevEvent`. -/
inductive IprevEvent where
  | pass | fail | permError | tempError | none
  deriving DecidableEq, Repr

/-- `DaneEvent`. -/
inductive DaneEvent where
  | authenticationSuccess | authenticationFailure | noCertificatesFound | certificateParseError
  | tlsaRecordMatch | tlsaRecordFetch | tlsaRecordFetchError | tlsaRecordNotFound
  | tlsaRecordNotDnssecSigned | tlsaRecordInvalid
  deriving DecidableEq, Repr

/-- `SpfEvent`. -/
inductive SpfEvent where
  | pass | fail | softFail | neutral | tempError | permError | none
  deriving DecidableEq, Repr

/-- `MailAuthEvent`. -/
inductive MailAuthEvent where
  | parseError | missingParameters | noHeadersFound | crypto | io | base64 | dnsError
  | dnsRecordNotFound | dnsInvalidRecordType | policyNotAligned
  deriving DecidableEq, Repr

/-- `TlsEvent`. -/
inductive TlsEvent where
  | handshake | handshakeError | notConfigured | certificateNotFound | noCertificatesAvailable
  | multipleCertificatesAvailable
  deriving DecidableEq, Repr

/-- `SieveEvent`. -/
inductive SieveEvent where
  | actionAccept | actionAcceptReplace | actionDiscard | actionReject | sendMessage
  | messageTooLarge | scriptNotFound | listNotFound | runtimeError | unexpectedError | notSupported
  | quotaExceeded
  deriving DecidableEq, Repr

/-- `SpamEvent`. -/
inductive SpamEvent where
  | pyzor | pyzorError | dnsbl | dnsblError | trainStarted | trainCompleted | trainSampleAdded
  | trainSampleNotFound | classify | modelLoaded | modelNotReady | modelNotFound
  deriving DecidableEq, Repr

/-- `PushSubscriptionEvent`. -/
inductive PushSubscriptionEvent where
  | success | error | notFound
  deriving DecidableEq, Repr

/-- `ClusterEvent`. -/
inductive ClusterEvent where
  | subscriberStart | subscriberStop | subscriberError | subscriberDisconnected | publisherStart
  | publisherStop | publisherError | messageReceived | messageSkipped | messageInvalid
  deriving DecidableEq, Repr

/-- `HousekeeperEvent`. -/
inductive HousekeeperEvent where
  | start | stop | schedule | run
  deriving DecidableEq, Repr

/-- `TaskQueueEvent`. -/
inductive TaskQueueEvent where
  | taskAcquired | taskLocked | taskIgnored | taskFailed | blobNotFound | metadataNotFound
  deriving DecidableEq, Repr

/-- `MilterEvent`. -/
inductive MilterEvent where
  | read | write | actionAccept | actionDiscard | actionReject | actionTempFail | actionReplyCode
  | actionConnectionFailure | actionShutdown | ioError | frameTooLarge | frameInvalid
  | unexpectedResponse | timeout | tlsInvalidName | disconnected | parseError
  deriving DecidableEq, Repr

/-- `MtaHookEvent`. -/
inductive MtaHookEvent where
  | actionAccept | actionDiscard | actionReject | actionQuarantine | error
  deriving DecidableEq, Repr

/-- `DeliveryHookEvent`. -/
inductive DeliveryHookEvent where
  | actionAccept | actionDiscard | actionReject | actionQuarantine | error
  deriving DecidableEq, Repr

/-- `DeliveryEvent`. -/
inductive DeliveryEvent where
  | attemptStart | attemptEnd | completed | failed | domainDeliveryStart | mxLookup
  | mxLookupFailed | ipLookup | ipLookupFailed | nullMx | connect | connectError
  | missingOutboundHostname | greetingFailed | ehlo | ehloRejected | auth | authFailed | mailFrom
  | mailFromRejected | delivered | rcptTo | rcptToRejected | rcptToFailed | messageRejected
  | startTls | startTlsUnavailable | startTlsError | startTlsDisabled | implicitTlsError
  | concurrencyLimitExceeded | rateLimitExceeded | doubleBounce | dsnSuccess | dsnTempFail
  | dsnPermFail | rawInput | rawOutput
  deriving DecidableEq, Repr

/-- `QueueEvent`. -/
inductive QueueEvent where
  | queueMessage | queueMessageAuthenticated | queueReport | queueDsn | queueAutogenerated
  | rescheduled | locked | blobNotFound | rateLimitExceeded | concurrencyLimitExceeded
  | quotaExceeded | backPressure
  deriving DecidableEq, Repr

/-- `TlsRptEvent`. -/
inductive TlsRptEvent where
  | recordFetch | recordFetchError | recordNotFound
  deriving DecidableEq, Repr

/-- `MtaStsEvent`. -/
inductive MtaStsEvent where
  | authorized | notAuthorized | policyFetch | policyNotFound | policyFetchError | invalidPolicy
  deriving DecidableEq, Repr

/-- `IncomingReportEvent`. -/
inductive IncomingReportEvent where
  | dmarcReport | dmarcReportWithWarnings | tlsReport | tlsReportWithWarnings | abuseReport
  | authFailureReport | fraudReport | notSpamReport | virusReport | otherReport
  | messageParseFailed | dmarcParseFailed | tlsRpcParseFailed | arfParseFailed | decompressError
  deriving DecidableEq, Repr

/-- `OutgoingReportEvent`. -/
inductive OutgoingReportEvent where
  | spfReport | spfRateLimited | dkimReport | dkimRateLimited | dmarcReport | dmarcRateLimited
  | dmarcAggregateReport | tlsAggregate | httpSubmission | unauthorizedReportingAddress
  | reportingAddressValidationError | notFound | submissionError | noRecipientsFound | locked
  deriving DecidableEq, Repr

/-- `TelemetryEvent`. -/
inductive TelemetryEvent where
  | alert | logError | webhookError | otelExporterError | otelMetricsExporterError
  | prometheusExporterError | journalError
  deriving DecidableEq, Repr

/-- `SecurityEvent`. -/
inductive SecurityEvent where
  | authenticationBan | abuseBan | scanBan | loiterBan | ipBlocked | unauthorized
  deriving DecidableEq, Repr

/-- `AiEvent`. -/
inductive AiEvent where
  | llmResponse | apiError
  deriving DecidableEq, Repr

/-- `WebDavEvent`. -/
inductive WebDavEvent where
  | propfind | proppatch | get | head | report | mkcol | mkcalendar | delete | put | post | patch
  | copy | move | lock | unlock | acl | options | error
  deriving DecidableEq, Repr

/-- `CalendarEvent`. -/
inductive CalendarEvent where
  | ruleExpansionError | alarmSent | alarmSkipped | alarmRecipientOverride | alarmFailed
  | itipMessageSent | itipMessageReceived | itipMessageError
  deriving DecidableEq, Repr

/-- `EventType`: the family of an event and its kind within the family. -/
inductive EventType where
  | server (event : ServerEvent)
  | purge (event : PurgeEvent)
  | eval (event : EvalEvent)
  | acme (event : AcmeEvent)
  | store (event : StoreEvent)
  | messageIngest (event : MessageIngestEvent)
  | jmap (event : JmapEvent)
  | imap (event : ImapEvent)
  | manageSieve (event : ManageSieveEvent)
  | pop3 (event : Pop3Event)
  | smtp (event : SmtpEvent)
  | http (event : HttpEvent)
  | network (event : NetworkEvent)
  | limit (event : LimitEvent)
  | manage (event : ManageEvent)
  | auth (event : AuthEvent)
  | config (event : ConfigEvent)
  | resource (event : ResourceEvent)
  | arc (event : ArcEvent)
  | dkim (event : DkimEvent)
  | dmarc (event : DmarcEvent)
  | iprev (event : IprevEvent)
  | dane (event : DaneEvent)
  | spf (event : SpfEvent)
  | mailAuth (event : MailAuthEvent)
  | tls (event : TlsEvent)
  | sieve (event : SieveEvent)
  | spam (event : SpamEvent)
  | pushSubscription (event : PushSubscriptionEvent)
  | cluster (event : ClusterEvent)
  | housekeeper (event : HousekeeperEvent)
  | taskQueue (event : TaskQueueEvent)
  | milter (event : MilterEvent)
  | mtaHook (event : MtaHookEvent)
  | deliveryHook (event : DeliveryHookEvent)
  | delivery (event : DeliveryEvent)
  | queue (event : QueueEvent)
  | tlsRpt (event : TlsRptEvent)
  | mtaSts (event : MtaStsEvent)
  | incomingReport (event : IncomingReportEvent)
  | outgoingReport (event : OutgoingReportEvent)
  | telemetry (event : TelemetryEvent)
  | security (event : SecurityEvent)
  | ai (event : AiEvent)
  | webDav (event : WebDavEvent)
  | calendar (event : CalendarEvent)
  deriving DecidableEq, Repr

/-- The arms of `EventType::code` for `EventType::Server`. -/
def ServerEvent.code : ServerEvent → Nat
  | .licensing => 391
  | .shutdown => 392
  | .startup => 393
  | .startupError => 394
  | .threadError => 395

/-- The arms of `EventType::code` for `EventType::Purge`. -/
def PurgeEvent.code : PurgeEvent → Nat
  | .autoExpunge => 364
  | .error => 365
  | .finished => 366
  | .inProgress => 367
  | .running => 368
  | .started => 369
  | .blobCleanup => 370

/-- The arms of `EventType::code` for `EventType::Eval`. -/
def EvalEvent.code : EvalEvent → Nat
  | .directoryNotFound => 137
  | .error => 138
  | .result => 139
  | .storeNotFound => 140

/-- The arms of `EventType::code` for `EventType::Acme`. -/
def AcmeEvent.code : AcmeEvent → Nat
  | .authCompleted => 0
  | .authError => 1
  | .authPending => 2
  | .authStart => 3
  | .authTooManyAttempts => 4
  | .authValid => 5
  | .clientMissingSni => 6
  | .clientSuppliedSni => 7
  | .dnsRecordCreated => 8
  | .dnsRecordCreationFailed => 9
  | .dnsRecordDeletionFailed => 10
  | .dnsRecordLookupFailed => 11
  | .dnsRecordNotPropagated => 12
  | .dnsRecordPropagated => 13
  | .dnsRecordPropagationTimeout => 14
  | .error => 15
  | .orderCompleted => 16
  | .orderInvalid => 17
  | .orderProcessing => 18
  | .orderReady => 19
  | .orderStart => 20
  | .orderValid => 21
  | .processCert => 22
  | .renewBackoff => 23
  | .tlsAlpnError => 24
  | .tlsAlpnReceived => 25
  | .tokenNotFound => 26

/-- The arms of `EventType::code` for `EventType::Store`. -/
def StoreEvent.code : StoreEvent → Nat
  | .httpStoreFetch => 492
  | .httpStoreError => 493
  | .assertValueFailed => 505
  | .blobDelete => 506
  | .blobMissingMarker => 507
  | .blobRead => 508
  | .blobWrite => 509
  | .cryptoError => 510
  | .dataCorruption => 511
  | .dataIterate => 512
  | .dataWrite => 513
  | .decompressError => 514
  | .deserializeError => 515
  | .elasticsearchError => 516
  | .filesystemError => 517
  | .foundationdbError => 518
  | .ldapWarning => 519
  | .ldapError => 520
  | .ldapQuery => 521
  | .mysqlError => 522
  | .notConfigured => 523
  | .notFound => 524
  | .notSupported => 525
  | .poolError => 526
  | .postgresqlError => 527
  | .redisError => 528
  | .rocksdbError => 529
  | .s3Error => 530
  | .sqlQuery => 531
  | .sqliteError => 532
  | .unexpectedError => 533
  | .azureError => 559
  | .cacheMiss => 50
  | .cacheHit => 51
  | .cacheStale => 52
  | .cacheUpdate => 577
  | .meilisearchError => 590

/-- The arms of `EventType::code` for `EventType::MessageIngest`. -/
def MessageIngestEvent.code : MessageIngestEvent → Nat
  | .ftsIndex => 142
  | .duplicate => 281
  | .error => 282
  | .ham => 283
  | .imapAppend => 284
  | .jmapAppend => 285
  | .spam => 286

/-- The arms of `EventType::code` for `EventType::Jmap`. -/
def JmapEvent.code : JmapEvent → Nat
  | .accountNotFound => 215
  | .accountNotSupportedByMethod => 216
  | .accountReadOnly => 217
  | .anchorNotFound => 218
  | .cannotCalculateChanges => 219
  | .forbidden => 220
  | .invalidArguments => 221
  | .invalidResultReference => 222
  | .methodCall => 223
  | .notFound => 224
  | .notJson => 225
  | .notRequest => 226
  | .requestTooLarge => 227
  | .stateMismatch => 228
  | .unknownCapability => 229
  | .unknownDataType => 230
  | .unknownMethod => 231
  | .unsupportedFilter => 232
  | .unsupportedSort => 233
  | .websocketError => 234
  | .websocketStart => 235
  | .websocketStop => 236

/-- The arms of `EventType::code` for `EventType::Imap`. -/
def ImapEvent.code : ImapEvent → Nat
  | .append => 159
  | .capabilities => 160
  | .close => 161
  | .connectionEnd => 162
  | .connectionStart => 163
  | .copy => 164
  | .createMailbox => 165
  | .deleteMailbox => 166
  | .enable => 167
  | .error => 168
  | .expunge => 169
  | .fetch => 170
  | .getAcl => 171
  | .id => 172
  | .idleStart => 173
  | .idleStop => 174
  | .list => 175
  | .listRights => 176
  | .logout => 177
  | .lsub => 178
  | .move => 179
  | .myRights => 180
  | .«namespace» => 181
  | .noop => 182
  | .rawInput => 183
  | .rawOutput => 184
  | .renameMailbox => 185
  | .search => 186
  | .select => 187
  | .setAcl => 188
  | .sort => 189
  | .status => 190
  | .store => 191
  | .subscribe => 192
  | .thread => 193
  | .unsubscribe => 194
  | .getQuota => 57

/-- The arms of `EventType::code` for `EventType::ManageSieve`. -/
def ManageSieveEvent.code : ManageSieveEvent → Nat
  | .capabilities => 256
  | .checkScript => 257
  | .connectionEnd => 258
  | .connectionStart => 259
  | .createScript => 260
  | .deleteScript => 261
  | .error => 262
  | .getScript => 263
  | .haveSpace => 264
  | .listScripts => 265
  | .logout => 266
  | .noop => 267
  | .rawInput => 268
  | .rawOutput => 269
  | .renameScript => 270
  | .setActive => 271
  | .startTls => 272
  | .unauthenticate => 273
  | .updateScript => 274

/-- The arms of `EventType::code` for `EventType::Pop3`. -/
def Pop3Event.code : Pop3Event → Nat
  | .capabilities => 346
  | .connectionEnd => 347
  | .connectionStart => 348
  | .delete => 349
  | .error => 350
  | .fetch => 351
  | .list => 352
  | .listMessage => 353
  | .noop => 354
  | .quit => 355
  | .rawInput => 356
  | .rawOutput => 357
  | .reset => 358
  | .startTls => 359
  | .stat => 360
  | .uidl => 361
  | .uidlMessage => 362
  | .utf8 => 363

/-- The arms of `EventType::code` for `EventType::Smtp`. -/
def SmtpEvent.code : SmtpEvent → Nat
  | .alreadyAuthenticated => 408
  | .arcFail => 409
  | .arcPass => 410
  | .authExchangeTooLong => 411
  | .authMechanismNotSupported => 412
  | .authNotAllowed => 413
  | .commandNotImplemented => 414
  | .concurrencyLimitExceeded => 415
  | .connectionEnd => 416
  | .connectionStart => 417
  | .deliverByDisabled => 418
  | .deliverByInvalid => 419
  | .didNotSayEhlo => 420
  | .dkimFail => 421
  | .dkimPass => 422
  | .dmarcFail => 423
  | .dmarcPass => 424
  | .dsnDisabled => 425
  | .ehlo => 426
  | .ehloExpected => 427
  | .error => 428
  | .expn => 429
  | .expnDisabled => 430
  | .expnNotFound => 431
  | .futureReleaseDisabled => 432
  | .futureReleaseInvalid => 433
  | .help => 434
  | .invalidCommand => 435
  | .invalidEhlo => 436
  | .invalidParameter => 437
  | .invalidRecipientAddress => 438
  | .invalidSenderAddress => 439
  | .iprevFail => 440
  | .iprevPass => 441
  | .lhloExpected => 442
  | .loopDetected => 443
  | .mailFrom => 444
  | .mailFromMissing => 445
  | .mailFromRewritten => 446
  | .mailFromUnauthenticated => 447
  | .mailFromUnauthorized => 448
  | .mailboxDoesNotExist => 449
  | .messageParseFailed => 450
  | .messageTooLarge => 451
  | .missingAuthDirectory => 452
  | .missingLocalHostname => 453
  | .mtPriorityDisabled => 454
  | .mtPriorityInvalid => 455
  | .multipleMailFrom => 456
  | .noop => 457
  | .quit => 460
  | .rateLimitExceeded => 461
  | .rawInput => 462
  | .rawOutput => 463
  | .rcptTo => 464
  | .rcptToDuplicate => 465
  | .rcptToMissing => 466
  | .rcptToRewritten => 467
  | .relayNotAllowed => 468
  | .idNotFound => 469
  | .requestTooLarge => 470
  | .requireTlsDisabled => 471
  | .rset => 472
  | .spfEhloFail => 473
  | .spfEhloPass => 474
  | .spfFromFail => 475
  | .spfFromPass => 476
  | .startTls => 477
  | .startTlsAlready => 478
  | .startTlsUnavailable => 479
  | .syntaxError => 480
  | .timeLimitExceeded => 481
  | .tooManyInvalidRcpt => 482
  | .tooManyMessages => 483
  | .tooManyRecipients => 484
  | .transferLimitExceeded => 485
  | .unsupportedParameter => 486
  | .vrfy => 487
  | .vrfyDisabled => 488
  | .vrfyNotFound => 489
  | .mailFromNotAllowed => 551
  | .rcptToGreylisted => 561

/-- The arms of `EventType::code` for `EventType::Http`. -/
def HttpEvent.code : HttpEvent → Nat
  | .connectionEnd => 152
  | .connectionStart => 153
  | .error => 154
  | .requestBody => 155
  | .requestUrl => 156
  | .responseBody => 157
  | .xForwardedMissing => 158

/-- The arms of `EventType::code` for `EventType::Network`. -/
def NetworkEvent.code : NetworkEvent → Nat
  | .acceptError => 315
  | .bindError => 316
  | .closed => 317
  | .flushError => 319
  | .listenError => 320
  | .listenStart => 321
  | .listenStop => 322
  | .proxyError => 323
  | .readError => 324
  | .setOptError => 325
  | .splitError => 326
  | .timeout => 327
  | .writeError => 328

/-- The arms of `EventType::code` for `EventType::Limit`. -/
def LimitEvent.code : LimitEvent → Nat
  | .blobQuota => 237
  | .callsIn => 238
  | .concurrentConnection => 239
  | .concurrentRequest => 240
  | .concurrentUpload => 241
  | .quota => 242
  | .sizeRequest => 243
  | .sizeUpload => 244
  | .tooManyRequests => 245
  | .tenantQuota => 553

/-- The arms of `EventType::code` for `EventType::Manage`. -/
def ManageEvent.code : ManageEvent → Nat
  | .alreadyExists => 275
  | .assertFailed => 276
  | .error => 277
  | .missingParameter => 278
  | .notFound => 279
  | .notSupported => 280

/-- The arms of `EventType::code` for `EventType::Auth`. -/
def AuthEvent.code : AuthEvent → Nat
  | .error => 34
  | .failed => 35
  | .missingTotp => 36
  | .success => 37
  | .tooManyAttempts => 38
  | .tokenExpired => 554
  | .clientRegistration => 555

/-- The arms of `EventType::code` for `EventType::Config`. -/
def ConfigEvent.code : ConfigEvent → Nat
  | .alreadyUpToDate => 53
  | .buildError => 54
  | .buildWarning => 55
  | .defaultApplied => 56
  | .fetchError => 58
  | .importExternal => 59
  | .macroError => 60
  | .missingSetting => 61
  | .parseError => 62
  | .parseWarning => 63
  | .unusedSetting => 64
  | .writeError => 65

/-- The arms of `EventType::code` for `EventType::Resource`. -/
def ResourceEvent.code : ResourceEvent → Nat
  | .badParameters => 386
  | .downloadExternal => 387
  | .error => 388
  | .notFound => 389
  | .webadminUnpacked => 390

/-- The arms of `EventType::code` for `EventType::Arc`. -/
def ArcEvent.code : ArcEvent → Nat
  | .brokenChain => 27
  | .chainTooLong => 28
  | .hasHeaderTag => 29
  | .invalidCv => 30
  | .invalidInstance => 31
  | .sealerNotFound => 32

/-- The arms of `EventType::code` for `EventType::Dkim`. -/
def DkimEvent.code : DkimEvent → Nat
  | .fail => 114
  | .failedAuidMatch => 115
  | .failedBodyHashMatch => 116
  | .failedVerification => 117
  | .incompatibleAlgorithms => 118
  | .neutral => 119
  | .none => 120
  | .pass => 121
  | .permError => 122
  | .revokedPublicKey => 123
  | .signatureExpired => 124
  | .signatureLength => 125
  | .signerNotFound => 126
  | .tempError => 127
  | .unsupportedAlgorithm => 128
  | .unsupportedCanonicalization => 129
  | .unsupportedKeyType => 130
  | .unsupportedVersion => 131

/-- The arms of `EventType::code` for `EventType::Dmarc`. -/
def DmarcEvent.code : DmarcEvent → Nat
  | .fail => 132
  | .none => 133
  | .pass => 134
  | .permError => 135
  | .tempError => 136

/-- The arms of `EventType::code` for `EventType::Iprev`. -/
def IprevEvent.code : IprevEvent → Nat
  | .fail => 210
  | .none => 211
  | .pass => 212
  | .permError => 213
  | .tempError => 214

/-- The arms of `EventType::code` for `EventType::Dane`. -/
def DaneEvent.code : DaneEvent → Nat
  | .authenticationFailure => 66
  | .authenticationSuccess => 67
  | .certificateParseError => 68
  | .noCertificatesFound => 69
  | .tlsaRecordFetch => 70
  | .tlsaRecordFetchError => 71
  | .tlsaRecordInvalid => 72
  | .tlsaRecordMatch => 73
  | .tlsaRecordNotDnssecSigned => 74
  | .tlsaRecordNotFound => 75

/-- The arms of `EventType::code` for `EventType::Spf`. -/
def SpfEvent.code : SpfEvent → Nat
  | .fail => 498
  | .neutral => 499
  | .none => 500
  | .pass => 501
  | .permError => 502
  | .softFail => 503
  | .tempError => 504

/-- The arms of `EventType::code` for `EventType::MailAuth`. -/
def MailAuthEvent.code : MailAuthEvent → Nat
  | .base64 => 246
  | .crypto => 247
  | .dnsError => 248
  | .dnsInvalidRecordType => 249
  | .dnsRecordNotFound => 250
  | .io => 251
  | .missingParameters => 252
  | .noHeadersFound => 253
  | .parseError => 254
  | .policyNotAligned => 255

/-- The arms of `EventType::code` for `EventType::Tls`. -/
def TlsEvent.code : TlsEvent → Nat
  | .certificateNotFound => 542
  | .handshake => 543
  | .handshakeError => 544
  | .multipleCertificatesAvailable => 545
  | .noCertificatesAvailable => 546
  | .notConfigured => 547

/-- The arms of `EventType::code` for `EventType::Sieve`. -/
def SieveEvent.code : SieveEvent → Nat
  | .actionAccept => 396
  | .actionAcceptReplace => 397
  | .actionDiscard => 398
  | .actionReject => 399
  | .listNotFound => 400
  | .messageTooLarge => 401
  | .notSupported => 402
  | .quotaExceeded => 403
  | .runtimeError => 404
  | .scriptNotFound => 405
  | .sendMessage => 406
  | .unexpectedError => 407

/-- The arms of `EventType::code` for `EventType::Spam`. -/
def SpamEvent.code : SpamEvent → Nat
  | .trainSampleAdded => 143
  | .classify => 490
  | .trainSampleNotFound => 491
  | .pyzorError => 494
  | .trainCompleted => 495
  | .modelNotReady => 496
  | .modelNotFound => 497
  | .dnsbl => 562
  | .dnsblError => 563
  | .pyzor => 564
  | .trainStarted => 588
  | .modelLoaded => 589

/-- The arms of `EventType::code` for `EventType::PushSubscription`. -/
def PushSubscriptionEvent.code : PushSubscriptionEvent → Nat
  | .error => 371
  | .notFound => 372
  | .success => 373

/-- The arms of `EventType::code` for `EventType::Cluster`. -/
def ClusterEvent.code : ClusterEvent → Nat
  | .subscriberStart => 39
  | .subscriberStop => 40
  | .subscriberError => 41
  | .subscriberDisconnected => 42
  | .publisherStart => 43
  | .publisherStop => 44
  | .publisherError => 45
  | .messageReceived => 46
  | .messageSkipped => 47
  | .messageInvalid => 49

/-- The arms of `EventType::code` for `EventType::Housekeeper`. -/
def HousekeeperEvent.code : HousekeeperEvent → Nat
  | .run => 146
  | .schedule => 149
  | .start => 150
  | .stop => 151

/-- The arms of `EventType::code` for `EventType::TaskQueue`. -/
def TaskQueueEvent.code : TaskQueueEvent → Nat
  | .blobNotFound => 141
  | .taskLocked => 144
  | .metadataNotFound => 145
  | .taskAcquired => 578
  | .taskIgnored => 586
  | .taskFailed => 587

/-- The arms of `EventType::code` for `EventType::Milter`. -/
def MilterEvent.code : MilterEvent → Nat
  | .actionAccept => 287
  | .actionConnectionFailure => 288
  | .actionDiscard => 289
  | .actionReject => 290
  | .actionReplyCode => 291
  | .actionShutdown => 292
  | .actionTempFail => 293
  | .disconnected => 294
  | .frameInvalid => 295
  | .frameTooLarge => 296
  | .ioError => 297
  | .parseError => 298
  | .read => 299
  | .timeout => 300
  | .tlsInvalidName => 301
  | .unexpectedResponse => 302
  | .write => 303

/-- The arms of `EventType::code` for `EventType::MtaHook`. -/
def MtaHookEvent.code : MtaHookEvent → Nat
  | .actionAccept => 304
  | .actionDiscard => 305
  | .actionQuarantine => 306
  | .actionReject => 307
  | .error => 308

/-- The arms of `EventType::code` for `EventType::DeliveryHook`. -/
def DeliveryHookEvent.code : DeliveryHookEvent → Nat
  | .actionAccept => 586
  | .actionReject => 587
  | .actionDiscard => 588
  | .actionQuarantine => 589
  | .error => 590

/-- The arms of `EventType::code` for `EventType::Delivery`. -/
def DeliveryEvent.code : DeliveryEvent → Nat
  | .attemptEnd => 76
  | .attemptStart => 77
  | .auth => 78
  | .authFailed => 79
  | .completed => 80
  | .concurrencyLimitExceeded => 81
  | .connect => 82
  | .connectError => 83
  | .delivered => 84
  | .domainDeliveryStart => 85
  | .doubleBounce => 86
  | .dsnPermFail => 87
  | .dsnSuccess => 88
  | .dsnTempFail => 89
  | .ehlo => 90
  | .ehloRejected => 91
  | .failed => 92
  | .greetingFailed => 93
  | .implicitTlsError => 94
  | .ipLookup => 95
  | .ipLookupFailed => 96
  | .mailFrom => 97
  | .mailFromRejected => 98
  | .messageRejected => 99
  | .missingOutboundHostname => 100
  | .mxLookup => 101
  | .mxLookupFailed => 102
  | .nullMx => 103
  | .rateLimitExceeded => 104
  | .rawInput => 105
  | .rawOutput => 106
  | .rcptTo => 107
  | .rcptToFailed => 108
  | .rcptToRejected => 109
  | .startTls => 110
  | .startTlsDisabled => 111
  | .startTlsError => 112
  | .startTlsUnavailable => 113

/-- The arms of `EventType::code` for `EventType::Queue`. -/
def QueueEvent.code : QueueEvent → Nat
  | .blobNotFound => 374
  | .concurrencyLimitExceeded => 375
  | .locked => 377
  | .queueAutogenerated => 378
  | .queueDsn => 379
  | .queueMessage => 380
  | .queueMessageAuthenticated => 381
  | .queueReport => 382
  | .quotaExceeded => 383
  | .rateLimitExceeded => 384
  | .rescheduled => 385
  | .backPressure => 48

/-- The arms of `EventType::code` for `EventType::TlsRpt`. -/
def TlsRptEvent.code : TlsRptEvent → Nat
  | .recordFetch => 540
  | .recordFetchError => 541
  | .recordNotFound => 560

/-- The arms of `EventType::code` for `EventType::MtaSts`. -/
def MtaStsEvent.code : MtaStsEvent → Nat
  | .authorized => 309
  | .invalidPolicy => 310
  | .notAuthorized => 311
  | .policyFetch => 312
  | .policyFetchError => 313
  | .policyNotFound => 314

/-- The arms of `EventType::code` for `EventType::IncomingReport`. -/
def IncomingReportEvent.code : IncomingReportEvent → Nat
  | .abuseReport => 195
  | .arfParseFailed => 196
  | .authFailureReport => 197
  | .decompressError => 198
  | .dmarcParseFailed => 199
  | .dmarcReport => 200
  | .dmarcReportWithWarnings => 201
  | .fraudReport => 202
  | .messageParseFailed => 203
  | .notSpamReport => 204
  | .otherReport => 205
  | .tlsReport => 206
  | .tlsReportWithWarnings => 207
  | .tlsRpcParseFailed => 208
  | .virusReport => 209

/-- The arms of `EventType::code` for `EventType::OutgoingReport`. -/
def OutgoingReportEvent.code : OutgoingReportEvent → Nat
  | .dkimRateLimited => 329
  | .dkimReport => 330
  | .dmarcAggregateReport => 331
  | .dmarcRateLimited => 332
  | .dmarcReport => 333
  | .httpSubmission => 334
  | .locked => 337
  | .noRecipientsFound => 338
  | .notFound => 339
  | .reportingAddressValidationError => 340
  | .spfRateLimited => 341
  | .spfReport => 342
  | .submissionError => 343
  | .tlsAggregate => 344
  | .unauthorizedReportingAddress => 345

/-- The arms of `EventType::code` for `EventType::Telemetry`. -/
def TelemetryEvent.code : TelemetryEvent → Nat
  | .journalError => 534
  | .logError => 535
  | .otelExporterError => 536
  | .otelMetricsExporterError => 537
  | .prometheusExporterError => 538
  | .webhookError => 539
  | .alert => 548

/-- The arms of `EventType::code` for `EventType::Security`. -/
def SecurityEvent.code : SecurityEvent → Nat
  | .authenticationBan => 33
  | .ipBlocked => 318
  | .abuseBan => 549
  | .loiterBan => 550
  | .unauthorized => 552
  | .scanBan => 558

/-- The arms of `EventType::code` for `EventType::Ai`. -/
def AiEvent.code : AiEvent → Nat
  | .llmResponse => 556
  | .apiError => 557

/-- The arms of `EventType::code` for `EventType::WebDav`. -/
def WebDavEvent.code : WebDavEvent → Nat
  | .propfind => 147
  | .proppatch => 148
  | .get => 335
  | .report => 336
  | .mkcol => 376
  | .delete => 458
  | .put => 459
  | .post => 565
  | .patch => 566
  | .copy => 567
  | .move => 568
  | .lock => 569
  | .unlock => 570
  | .acl => 571
  | .error => 572
  | .options => 573
  | .head => 574
  | .mkcalendar => 575

/-- The arms of `EventType::code` for `EventType::Calendar`. -/
def CalendarEvent.code : CalendarEvent → Nat
  | .ruleExpansionError => 576
  | .alarmSent => 579
  | .alarmSkipped => 580
  | .alarmRecipientOverride => 581
  | .alarmFailed => 582
  | .itipMessageSent => 583
  | .itipMessageReceived => 584
  | .itipMessageError => 585

/-- `EventType::code`. -/
def EventType.code : EventType → Nat
  | .server event => event.code
  | .purge event => event.code
  | .eval event => event.code
  | .acme event => event.code
  | .store event => event.code
  | .messageIngest event => event.code
  | .jmap event => event.code
  | .imap event => event.code
  | .manageSieve event => event.code
  | .pop3 event => event.code
  | .smtp event => event.code
  | .http event => event.code
  | .network event => event.code
  | .limit event => event.code
  | .manage event => event.code
  | .auth event => event.code
  | .config event => event.code
  | .resource event => event.code
  | .arc event => event.code
  | .dkim event => event.code
  | .dmarc event => event.code
  | .iprev event => event.code
  | .dane event => event.code
  | .spf event => event.code
  | .mailAuth event => event.code
  | .tls event => event.code
  | .sieve event => event.code
  | .spam event => event.code
  | .pushSubscription event => event.code
  | .cluster event => event.code
  | .housekeeper event => event.code
  | .taskQueue event => event.code
  | .milter event => event.code
  | .mtaHook event => event.code
  | .deliveryHook event => event.code
  | .delivery event => event.code
  | .queue event => event.code
  | .tlsRpt event => event.code
  | .mtaSts event => event.code
  | .incomingReport event => event.code
  | .outgoingReport event => event.code
  | .telemetry event => event.code
  | .security event => event.code
  | .ai event => event.code
  | .webDav event => event.code
  | .calendar event => event.code

/-- The arms of `EventType::from_code`, in order: the number each names and the type it gives. -/
def EventType.fromCodeTable : List (Nat × EventType) := [
  (0, .acme .authCompleted),
  (1, .acme .authError),
  (2, .acme .authPending),
  (3, .acme .authStart),
  (4, .acme .authTooManyAttempts),
  (5, .acme .authValid),
  (6, .acme .clientMissingSni),
  (7, .acme .clientSuppliedSni),
  (8, .acme .dnsRecordCreated),
  (9, .acme .dnsRecordCreationFailed),
  (10, .acme .dnsRecordDeletionFailed),
  (11, .acme .dnsRecordLookupFailed),
  (12, .acme .dnsRecordNotPropagated),
  (13, .acme .dnsRecordPropagated),
  (14, .acme .dnsRecordPropagationTimeout),
  (15, .acme .error),
  (16, .acme .orderCompleted),
  (17, .acme .orderInvalid),
  (18, .acme .orderProcessing),
  (19, .acme .orderReady),
  (20, .acme .orderStart),
  (21, .acme .orderValid),
  (22, .acme .processCert),
  (23, .acme .renewBackoff),
  (24, .acme .tlsAlpnError),
  (25, .acme .tlsAlpnReceived),
  (26, .acme .tokenNotFound),
  (27, .arc .brokenChain),
  (28, .arc .chainTooLong),
  (29, .arc .hasHeaderTag),
  (30, .arc .invalidCv),
  (31, .arc .invalidInstance),
  (32, .arc .sealerNotFound),
  (33, .security .authenticationBan),
  (34, .auth .error),
  (35, .auth .failed),
  (36, .auth .missingTotp),
  (37, .auth .success),
  (38, .auth .tooManyAttempts),
  (39, .cluster .subscriberStart),
  (40, .cluster .subscriberStop),
  (41, .cluster .subscriberError),
  (42, .cluster .subscriberDisconnected),
  (43, .cluster .publisherStart),
  (44, .cluster .publisherStop),
  (45, .cluster .publisherError),
  (46, .cluster .messageReceived),
  (47, .cluster .messageSkipped),
  (49, .cluster .messageInvalid),
  (53, .config .alreadyUpToDate),
  (54, .config .buildError),
  (55, .config .buildWarning),
  (56, .config .defaultApplied),
  (58, .config .fetchError),
  (59, .config .importExternal),
  (60, .config .macroError),
  (61, .config .missingSetting),
  (62, .config .parseError),
  (63, .config .parseWarning),
  (64, .config .unusedSetting),
  (65, .config .writeError),
  (66, .dane .authenticationFailure),
  (67, .dane .authenticationSuccess),
  (68, .dane .certificateParseError),
  (69, .dane .noCertificatesFound),
  (70, .dane .tlsaRecordFetch),
  (71, .dane .tlsaRecordFetchError),
  (72, .dane .tlsaRecordInvalid),
  (73, .dane .tlsaRecordMatch),
  (74, .dane .tlsaRecordNotDnssecSigned),
  (75, .dane .tlsaRecordNotFound),
  (76, .delivery .attemptEnd),
  (77, .delivery .attemptStart),
  (78, .delivery .auth),
  (79, .delivery .authFailed),
  (80, .delivery .completed),
  (81, .delivery .concurrencyLimitExceeded),
  (82, .delivery .connect),
  (83, .delivery .connectError),
  (84, .delivery .delivered),
  (85, .delivery .domainDeliveryStart),
  (86, .delivery .doubleBounce),
  (87, .delivery .dsnPermFail),
  (88, .delivery .dsnSuccess),
  (89, .delivery .dsnTempFail),
  (90, .delivery .ehlo),
  (91, .delivery .ehloRejected),
  (92, .delivery .failed),
  (93, .delivery .greetingFailed),
  (94, .delivery .implicitTlsError),
  (95, .delivery .ipLookup),
  (96, .delivery .ipLookupFailed),
  (97, .delivery .mailFrom),
  (98, .delivery .mailFromRejected),
  (99, .delivery .messageRejected),
  (100, .delivery .missingOutboundHostname),
  (101, .delivery .mxLookup),
  (102, .delivery .mxLookupFailed),
  (103, .delivery .nullMx),
  (104, .delivery .rateLimitExceeded),
  (105, .delivery .rawInput),
  (106, .delivery .rawOutput),
  (107, .delivery .rcptTo),
  (108, .delivery .rcptToFailed),
  (109, .delivery .rcptToRejected),
  (110, .delivery .startTls),
  (111, .delivery .startTlsDisabled),
  (112, .delivery .startTlsError),
  (113, .delivery .startTlsUnavailable),
  (114, .dkim .fail),
  (115, .dkim .failedAuidMatch),
  (116, .dkim .failedBodyHashMatch),
  (117, .dkim .failedVerification),
  (118, .dkim .incompatibleAlgorithms),
  (119, .dkim .neutral),
  (120, .dkim .none),
  (121, .dkim .pass),
  (122, .dkim .permError),
  (123, .dkim .revokedPublicKey),
  (124, .dkim .signatureExpired),
  (125, .dkim .signatureLength),
  (126, .dkim .signerNotFound),
  (127, .dkim .tempError),
  (128, .dkim .unsupportedAlgorithm),
  (129, .dkim .unsupportedCanonicalization),
  (130, .dkim .unsupportedKeyType),
  (131, .dkim .unsupportedVersion),
  (132, .dmarc .fail),
  (133, .dmarc .none),
  (134, .dmarc .pass),
  (135, .dmarc .permError),
  (136, .dmarc .tempError),
  (137, .eval .directoryNotFound),
  (138, .eval .error),
  (139, .eval .result),
  (140, .eval .storeNotFound),
  (141, .taskQueue .blobNotFound),
  (142, .messageIngest .ftsIndex),
  (143, .spam .trainSampleAdded),
  (144, .taskQueue .taskLocked),
  (145, .taskQueue .metadataNotFound),
  (146, .housekeeper .run),
  (149, .housekeeper .schedule),
  (150, .housekeeper .start),
  (151, .housekeeper .stop),
  (152, .http .connectionEnd),
  (153, .http .connectionStart),
  (154, .http .error),
  (155, .http .requestBody),
  (156, .http .requestUrl),
  (157, .http .responseBody),
  (158, .http .xForwardedMissing),
  (159, .imap .append),
  (160, .imap .capabilities),
  (161, .imap .close),
  (162, .imap .connectionEnd),
  (163, .imap .connectionStart),
  (164, .imap .copy),
  (165, .imap .createMailbox),
  (166, .imap .deleteMailbox),
  (167, .imap .enable),
  (168, .imap .error),
  (169, .imap .expunge),
  (170, .imap .fetch),
  (171, .imap .getAcl),
  (172, .imap .id),
  (173, .imap .idleStart),
  (174, .imap .idleStop),
  (175, .imap .list),
  (176, .imap .listRights),
  (177, .imap .logout),
  (178, .imap .lsub),
  (179, .imap .move),
  (180, .imap .myRights),
  (181, .imap .«namespace»),
  (182, .imap .noop),
  (183, .imap .rawInput),
  (184, .imap .rawOutput),
  (185, .imap .renameMailbox),
  (186, .imap .search),
  (187, .imap .select),
  (188, .imap .setAcl),
  (189, .imap .sort),
  (190, .imap .status),
  (191, .imap .store),
  (192, .imap .subscribe),
  (193, .imap .thread),
  (194, .imap .unsubscribe),
  (195, .incomingReport .abuseReport),
  (196, .incomingReport .arfParseFailed),
  (197, .incomingReport .authFailureReport),
  (198, .incomingReport .decompressError),
  (199, .incomingReport .dmarcParseFailed),
  (200, .incomingReport .dmarcReport),
  (201, .incomingReport .dmarcReportWithWarnings),
  (202, .incomingReport .fraudReport),
  (203, .incomingReport .messageParseFailed),
  (204, .incomingReport .notSpamReport),
  (205, .incomingReport .otherReport),
  (206, .incomingReport .tlsReport),
  (207, .incomingReport .tlsReportWithWarnings),
  (208, .incomingReport .tlsRpcParseFailed),
  (209, .incomingReport .virusReport),
  (210, .iprev .fail),
  (211, .iprev .none),
  (212, .iprev .pass),
  (213, .iprev .permError),
  (214, .iprev .tempError),
  (215, .jmap .accountNotFound),
  (216, .jmap .accountNotSupportedByMethod),
  (217, .jmap .accountReadOnly),
  (218, .jmap .anchorNotFound),
  (219, .jmap .cannotCalculateChanges),
  (220, .jmap .forbidden),
  (221, .jmap .invalidArguments),
  (222, .jmap .invalidResultReference),
  (223, .jmap .methodCall),
  (224, .jmap .notFound),
  (225, .jmap .notJson),
  (226, .jmap .notRequest),
  (227, .jmap .requestTooLarge),
  (228, .jmap .stateMismatch),
  (229, .jmap .unknownCapability),
  (230, .jmap .unknownDataType),
  (231, .jmap .unknownMethod),
  (232, .jmap .unsupportedFilter),
  (233, .jmap .unsupportedSort),
  (234, .jmap .websocketError),
  (235, .jmap .websocketStart),
  (236, .jmap .websocketStop),
  (237, .limit .blobQuota),
  (238, .limit .callsIn),
  (239, .limit .concurrentConnection),
  (240, .limit .concurrentRequest),
  (241, .limit .concurrentUpload),
  (242, .limit .quota),
  (243, .limit .sizeRequest),
  (244, .limit .sizeUpload),
  (245, .limit .tooManyRequests),
  (246, .mailAuth .base64),
  (247, .mailAuth .crypto),
  (248, .mailAuth .dnsError),
  (249, .mailAuth .dnsInvalidRecordType),
  (250, .mailAuth .dnsRecordNotFound),
  (251, .mailAuth .io),
  (252, .mailAuth .missingParameters),
  (253, .mailAuth .noHeadersFound),
  (254, .mailAuth .parseError),
  (255, .mailAuth .policyNotAligned),
  (256, .manageSieve .capabilities),
  (257, .manageSieve .checkScript),
  (258, .manageSieve .connectionEnd),
  (259, .manageSieve .connectionStart),
  (260, .manageSieve .createScript),
  (261, .manageSieve .deleteScript),
  (262, .manageSieve .error),
  (263, .manageSieve .getScript),
  (264, .manageSieve .haveSpace),
  (265, .manageSieve .listScripts),
  (266, .manageSieve .logout),
  (267, .manageSieve .noop),
  (268, .manageSieve .rawInput),
  (269, .manageSieve .rawOutput),
  (270, .manageSieve .renameScript),
  (271, .manageSieve .setActive),
  (272, .manageSieve .startTls),
  (273, .manageSieve .unauthenticate),
  (274, .manageSieve .updateScript),
  (275, .manage .alreadyExists),
  (276, .manage .assertFailed),
  (277, .manage .error),
  (278, .manage .missingParameter),
  (279, .manage .notFound),
  (280, .manage .notSupported),
  (281, .messageIngest .duplicate),
  (282, .messageIngest .error),
  (283, .messageIngest .ham),
  (284, .messageIngest .imapAppend),
  (285, .messageIngest .jmapAppend),
  (286, .messageIngest .spam),
  (287, .milter .actionAccept),
  (288, .milter .actionConnectionFailure),
  (289, .milter .actionDiscard),
  (290, .milter .actionReject),
  (291, .milter .actionReplyCode),
  (292, .milter .actionShutdown),
  (293, .milter .actionTempFail),
  (294, .milter .disconnected),
  (295, .milter .frameInvalid),
  (296, .milter .frameTooLarge),
  (297, .milter .ioError),
  (298, .milter .parseError),
  (299, .milter .read),
  (300, .milter .timeout),
  (301, .milter .tlsInvalidName),
  (302, .milter .unexpectedResponse),
  (303, .milter .write),
  (304, .mtaHook .actionAccept),
  (305, .mtaHook .actionDiscard),
  (306, .mtaHook .actionQuarantine),
  (307, .mtaHook .actionReject),
  (308, .mtaHook .error),
  (586, .deliveryHook .actionAccept),
  (587, .deliveryHook .actionReject),
  (588, .deliveryHook .actionDiscard),
  (589, .deliveryHook .actionQuarantine),
  (590, .deliveryHook .error),
  (309, .mtaSts .authorized),
  (310, .mtaSts .invalidPolicy),
  (311, .mtaSts .notAuthorized),
  (312, .mtaSts .policyFetch),
  (313, .mtaSts .policyFetchError),
  (314, .mtaSts .policyNotFound),
  (315, .network .acceptError),
  (316, .network .bindError),
  (317, .network .closed),
  (318, .security .ipBlocked),
  (319, .network .flushError),
  (320, .network .listenError),
  (321, .network .listenStart),
  (322, .network .listenStop),
  (323, .network .proxyError),
  (324, .network .readError),
  (325, .network .setOptError),
  (326, .network .splitError),
  (327, .network .timeout),
  (328, .network .writeError),
  (329, .outgoingReport .dkimRateLimited),
  (330, .outgoingReport .dkimReport),
  (331, .outgoingReport .dmarcAggregateReport),
  (332, .outgoingReport .dmarcRateLimited),
  (333, .outgoingReport .dmarcReport),
  (334, .outgoingReport .httpSubmission),
  (337, .outgoingReport .locked),
  (338, .outgoingReport .noRecipientsFound),
  (339, .outgoingReport .notFound),
  (340, .outgoingReport .reportingAddressValidationError),
  (341, .outgoingReport .spfRateLimited),
  (342, .outgoingReport .spfReport),
  (343, .outgoingReport .submissionError),
  (344, .outgoingReport .tlsAggregate),
  (345, .outgoingReport .unauthorizedReportingAddress),
  (346, .pop3 .capabilities),
  (347, .pop3 .connectionEnd),
  (348, .pop3 .connectionStart),
  (349, .pop3 .delete),
  (350, .pop3 .error),
  (351, .pop3 .fetch),
  (352, .pop3 .list),
  (353, .pop3 .listMessage),
  (354, .pop3 .noop),
  (355, .pop3 .quit),
  (356, .pop3 .rawInput),
  (357, .pop3 .rawOutput),
  (358, .pop3 .reset),
  (359, .pop3 .startTls),
  (360, .pop3 .stat),
  (361, .pop3 .uidl),
  (362, .pop3 .uidlMessage),
  (363, .pop3 .utf8),
  (364, .purge .autoExpunge),
  (365, .purge .error),
  (366, .purge .finished),
  (367, .purge .inProgress),
  (368, .purge .running),
  (369, .purge .started),
  (370, .purge .blobCleanup),
  (371, .pushSubscription .error),
  (372, .pushSubscription .notFound),
  (373, .pushSubscription .success),
  (374, .queue .blobNotFound),
  (375, .queue .concurrencyLimitExceeded),
  (377, .queue .locked),
  (378, .queue .queueAutogenerated),
  (379, .queue .queueDsn),
  (380, .queue .queueMessage),
  (381, .queue .queueMessageAuthenticated),
  (382, .queue .queueReport),
  (383, .queue .quotaExceeded),
  (384, .queue .rateLimitExceeded),
  (385, .queue .rescheduled),
  (386, .resource .badParameters),
  (387, .resource .downloadExternal),
  (388, .resource .error),
  (389, .resource .notFound),
  (390, .resource .webadminUnpacked),
  (391, .server .licensing),
  (392, .server .shutdown),
  (393, .server .startup),
  (394, .server .startupError),
  (395, .server .threadError),
  (396, .sieve .actionAccept),
  (397, .sieve .actionAcceptReplace),
  (398, .sieve .actionDiscard),
  (399, .sieve .actionReject),
  (400, .sieve .listNotFound),
  (401, .sieve .messageTooLarge),
  (402, .sieve .notSupported),
  (403, .sieve .quotaExceeded),
  (404, .sieve .runtimeError),
  (405, .sieve .scriptNotFound),
  (406, .sieve .sendMessage),
  (407, .sieve .unexpectedError),
  (408, .smtp .alreadyAuthenticated),
  (409, .smtp .arcFail),
  (410, .smtp .arcPass),
  (411, .smtp .authExchangeTooLong),
  (412, .smtp .authMechanismNotSupported),
  (413, .smtp .authNotAllowed),
  (414, .smtp .commandNotImplemented),
  (415, .smtp .concurrencyLimitExceeded),
  (416, .smtp .connectionEnd),
  (417, .smtp .connectionStart),
  (418, .smtp .deliverByDisabled),
  (419, .smtp .deliverByInvalid),
  (420, .smtp .didNotSayEhlo),
  (421, .smtp .dkimFail),
  (422, .smtp .dkimPass),
  (423, .smtp .dmarcFail),
  (424, .smtp .dmarcPass),
  (425, .smtp .dsnDisabled),
  (426, .smtp .ehlo),
  (427, .smtp .ehloExpected),
  (428, .smtp .error),
  (429, .smtp .expn),
  (430, .smtp .expnDisabled),
  (431, .smtp .expnNotFound),
  (432, .smtp .futureReleaseDisabled),
  (433, .smtp .futureReleaseInvalid),
  (434, .smtp .help),
  (435, .smtp .invalidCommand),
  (436, .smtp .invalidEhlo),
  (437, .smtp .invalidParameter),
  (438, .smtp .invalidRecipientAddress),
  (439, .smtp .invalidSenderAddress),
  (440, .smtp .iprevFail),
  (441, .smtp .iprevPass),
  (442, .smtp .lhloExpected),
  (443, .smtp .loopDetected),
  (444, .smtp .mailFrom),
  (445, .smtp .mailFromMissing),
  (446, .smtp .mailFromRewritten),
  (447, .smtp .mailFromUnauthenticated),
  (448, .smtp .mailFromUnauthorized),
  (449, .smtp .mailboxDoesNotExist),
  (450, .smtp .messageParseFailed),
  (451, .smtp .messageTooLarge),
  (452, .smtp .missingAuthDirectory),
  (453, .smtp .missingLocalHostname),
  (454, .smtp .mtPriorityDisabled),
  (455, .smtp .mtPriorityInvalid),
  (456, .smtp .multipleMailFrom),
  (457, .smtp .noop),
  (460, .smtp .quit),
  (461, .smtp .rateLimitExceeded),
  (462, .smtp .rawInput),
  (463, .smtp .rawOutput),
  (464, .smtp .rcptTo),
  (465, .smtp .rcptToDuplicate),
  (466, .smtp .rcptToMissing),
  (467, .smtp .rcptToRewritten),
  (468, .smtp .relayNotAllowed),
  (469, .smtp .idNotFound),
  (470, .smtp .requestTooLarge),
  (471, .smtp .requireTlsDisabled),
  (472, .smtp .rset),
  (473, .smtp .spfEhloFail),
  (474, .smtp .spfEhloPass),
  (475, .smtp .spfFromFail),
  (476, .smtp .spfFromPass),
  (477, .smtp .startTls),
  (478, .smtp .startTlsAlready),
  (479, .smtp .startTlsUnavailable),
  (480, .smtp .syntaxError),
  (481, .smtp .timeLimitExceeded),
  (482, .smtp .tooManyInvalidRcpt),
  (483, .smtp .tooManyMessages),
  (484, .smtp .tooManyRecipients),
  (485, .smtp .transferLimitExceeded),
  (486, .smtp .unsupportedParameter),
  (487, .smtp .vrfy),
  (488, .smtp .vrfyDisabled),
  (489, .smtp .vrfyNotFound),
  (490, .spam .classify),
  (491, .spam .trainSampleNotFound),
  (492, .store .httpStoreFetch),
  (493, .store .httpStoreError),
  (494, .spam .pyzorError),
  (495, .spam .trainCompleted),
  (496, .spam .modelNotReady),
  (497, .spam .modelNotFound),
  (498, .spf .fail),
  (499, .spf .neutral),
  (500, .spf .none),
  (501, .spf .pass),
  (502, .spf .permError),
  (503, .spf .softFail),
  (504, .spf .tempError),
  (505, .store .assertValueFailed),
  (506, .store .blobDelete),
  (507, .store .blobMissingMarker),
  (508, .store .blobRead),
  (509, .store .blobWrite),
  (510, .store .cryptoError),
  (511, .store .dataCorruption),
  (512, .store .dataIterate),
  (513, .store .dataWrite),
  (514, .store .decompressError),
  (515, .store .deserializeError),
  (516, .store .elasticsearchError),
  (517, .store .filesystemError),
  (518, .store .foundationdbError),
  (519, .store .ldapWarning),
  (520, .store .ldapError),
  (521, .store .ldapQuery),
  (522, .store .mysqlError),
  (523, .store .notConfigured),
  (524, .store .notFound),
  (525, .store .notSupported),
  (526, .store .poolError),
  (527, .store .postgresqlError),
  (528, .store .redisError),
  (529, .store .rocksdbError),
  (530, .store .s3Error),
  (531, .store .sqlQuery),
  (532, .store .sqliteError),
  (533, .store .unexpectedError),
  (534, .telemetry .journalError),
  (535, .telemetry .logError),
  (536, .telemetry .otelExporterError),
  (537, .telemetry .otelMetricsExporterError),
  (538, .telemetry .prometheusExporterError),
  (539, .telemetry .webhookError),
  (540, .tlsRpt .recordFetch),
  (541, .tlsRpt .recordFetchError),
  (542, .tls .certificateNotFound),
  (543, .tls .handshake),
  (544, .tls .handshakeError),
  (545, .tls .multipleCertificatesAvailable),
  (546, .tls .noCertificatesAvailable),
  (547, .tls .notConfigured),
  (548, .telemetry .alert),
  (549, .security .abuseBan),
  (550, .security .loiterBan),
  (551, .smtp .mailFromNotAllowed),
  (552, .security .unauthorized),
  (553, .limit .tenantQuota),
  (554, .auth .tokenExpired),
  (555, .auth .clientRegistration),
  (556, .ai .llmResponse),
  (557, .ai .apiError),
  (558, .security .scanBan),
  (559, .store .azureError),
  (560, .tlsRpt .recordNotFound),
  (561, .smtp .rcptToGreylisted),
  (562, .spam .dnsbl),
  (563, .spam .dnsblError),
  (564, .spam .pyzor),
  (48, .queue .backPressure),
  (57, .imap .getQuota),
  (147, .webDav .propfind),
  (148, .webDav .proppatch),
  (335, .webDav .get),
  (336, .webDav .report),
  (376, .webDav .mkcol),
  (458, .webDav .delete),
  (459, .webDav .put),
  (565, .webDav .post),
  (566, .webDav .patch),
  (567, .webDav .copy),
  (568, .webDav .move),
  (569, .webDav .lock),
  (570, .webDav .unlock),
  (571, .webDav .acl),
  (572, .webDav .error),
  (573, .webDav .options),
  (574, .webDav .head),
  (575, .webDav .mkcalendar),
  (576, .calendar .ruleExpansionError),
  (50, .store .cacheMiss),
  (51, .store .cacheHit),
  (52, .store .cacheStale),
  (577, .store .cacheUpdate),
  (578, .taskQueue .taskAcquired),
  (579, .calendar .alarmSent),
  (580, .calendar .alarmSkipped),
  (581, .calendar .alarmRecipientOverride),
  (582, .calendar .alarmFailed),
  (583, .calendar .itipMessageSent),
  (584, .calendar .itipMessageReceived),
  (585, .calendar .itipMessageError),
  (586, .taskQueue .taskIgnored),
  (587, .taskQueue .taskFailed),
  (588, .spam .trainStarted),
  (589, .spam .modelLoaded),
  (590, .store .meilisearchError)]

/-- `EventType::from_code`: the first arm naming the number. -/
def EventType.fromCode (code : Nat) : Option EventType :=
  fromCodeTable.lookup code

/-- `Key`. The variant `Code` is `code_`, as `code` names `Key::code`. -/
inductive Key where
  | accountName | accountId | blobId | causedBy | changeId | code_ | collection | contents
  | details | dkimFail | dkimNone | dkimPass | dmarcNone | dmarcPass | dmarcQuarantine
  | dmarcReject | documentId | domain | due | elapsed | expires | «from» | hostname | id | key
  | limit | listenerId | localIp | localPort | mailboxName | mailboxId | messageId | nextDsn
  | nextRetry | path | policy | queueId | rangeFrom | rangeTo | reason | remoteIp | remotePort
  | reportId | result | size | source | spanId | spfFail | spfNone | spfPass | strict | tls | to
  | total | totalFailures | totalSuccesses | «type» | uid | uidNext | uidValidity | url | validFrom
  | validTo | value | version | queueName
  deriving DecidableEq, Repr

/-- `Key::code`. -/
def Key.code : Key → Nat
  | .accountName => 0
  | .accountId => 1
  | .blobId => 2
  | .causedBy => 3
  | .changeId => 4
  | .code_ => 5
  | .collection => 6
  | .contents => 7
  | .details => 8
  | .dkimFail => 9
  | .dkimNone => 10
  | .dkimPass => 11
  | .dmarcNone => 12
  | .dmarcPass => 13
  | .dmarcQuarantine => 14
  | .dmarcReject => 15
  | .documentId => 16
  | .domain => 17
  | .due => 18
  | .elapsed => 19
  | .expires => 20
  | .«from» => 21
  | .hostname => 22
  | .id => 23
  | .key => 24
  | .limit => 25
  | .listenerId => 26
  | .localIp => 27
  | .localPort => 28
  | .mailboxName => 29
  | .mailboxId => 30
  | .messageId => 31
  | .nextDsn => 32
  | .nextRetry => 33
  | .path => 34
  | .policy => 35
  | .queueId => 36
  | .rangeFrom => 37
  | .rangeTo => 38
  | .reason => 39
  | .remoteIp => 40
  | .remotePort => 41
  | .reportId => 42
  | .result => 43
  | .size => 44
  | .source => 45
  | .spanId => 46
  | .spfFail => 47
  | .spfNone => 48
  | .spfPass => 49
  | .strict => 50
  | .tls => 51
  | .to => 52
  | .total => 53
  | .totalFailures => 54
  | .totalSuccesses => 55
  | .«type» => 56
  | .uid => 57
  | .uidNext => 58
  | .uidValidity => 59
  | .url => 60
  | .validFrom => 61
  | .validTo => 62
  | .value => 63
  | .version => 64
  | .queueName => 65

/-- The arms of `Key::from_code`, in order. -/
def Key.fromCodeTable : List (Nat × Key) := [
  (0, .accountName),
  (1, .accountId),
  (2, .blobId),
  (3, .causedBy),
  (4, .changeId),
  (5, .code_),
  (6, .collection),
  (7, .contents),
  (8, .details),
  (9, .dkimFail),
  (10, .dkimNone),
  (11, .dkimPass),
  (12, .dmarcNone),
  (13, .dmarcPass),
  (14, .dmarcQuarantine),
  (15, .dmarcReject),
  (16, .documentId),
  (17, .domain),
  (18, .due),
  (19, .elapsed),
  (20, .expires),
  (21, .«from»),
  (22, .hostname),
  (23, .id),
  (24, .key),
  (25, .limit),
  (26, .listenerId),
  (27, .localIp),
  (28, .localPort),
  (29, .mailboxName),
  (30, .mailboxId),
  (31, .messageId),
  (32, .nextDsn),
  (33, .nextRetry),
  (34, .path),
  (35, .policy),
  (36, .queueId),
  (37, .rangeFrom),
  (38, .rangeTo),
  (39, .reason),
  (40, .remoteIp),
  (41, .remotePort),
  (42, .reportId),
  (43, .result),
  (44, .size),
  (45, .source),
  (46, .spanId),
  (47, .spfFail),
  (48, .spfNone),
  (49, .spfPass),
  (50, .strict),
  (51, .tls),
  (52, .to),
  (53, .total),
  (54, .totalFailures),
  (55, .totalSuccesses),
  (56, .«type»),
  (57, .uid),
  (58, .uidNext),
  (59, .uidValidity),
  (60, .url),
  (61, .validFrom),
  (62, .validTo),
  (63, .value),
  (64, .version),
  (65, .queueName)]

/-- `Key::from_code`: the first arm naming the number. -/
def Key.fromCode (code : Nat) : Option Key :=
  fromCodeTable.lookup code

/-! ## The tables read against each other -/

/-- Every key reads back from its code. -/
theorem Key.fromCode_code (k : Key) : Key.fromCode k.code = some k := by
  cases k <;> decide

theorem Key.code_lt (k : Key) : k.code < 66 := by
  cases k <;> decide

/-- The five types whose codes `EventType::code` gives to `DeliveryHook` events too: `from_code`
reads `586` to `590` as `DeliveryHook` events, as its first arms for these numbers are theirs. -/
def EventType.codeCollisions : List EventType :=
  [.taskQueue .taskIgnored, .taskQueue .taskFailed, .spam .trainStarted, .spam .modelLoaded,
    .store .meilisearchError]

/-- The type the reading table gives for the code of `t`. -/
def EventType.readBack (t : EventType) : EventType :=
  (fromCode t.code).getD t

/-- Every type outside the five reads back from its code. -/
theorem EventType.fromCode_code_or_mem (t : EventType) :
    fromCode t.code = some t ∨ t ∈ codeCollisions := by
  cases t with
  | _ event => cases event <;> decide +kernel

theorem EventType.code_le (t : EventType) : t.code ≤ 590 := by
  cases t with
  | _ event => cases event <;> decide

theorem EventType.fromCode_code_ne_none (t : EventType) : fromCode t.code ≠ Option.none := by
  rcases fromCode_code_or_mem t with h | h
  · simp [h]
  · simp only [codeCollisions, List.mem_cons, List.not_mem_nil, or_false] at h
    rcases h with rfl | rfl | rfl | rfl | rfl <;> decide

/-- The reading table answers for every code the writing table gives. -/
theorem EventType.fromCode_code_eq_readBack (t : EventType) : fromCode t.code = some t.readBack := by
  rw [readBack]
  cases h : fromCode t.code with
  | none => exact absurd h (fromCode_code_ne_none t)
  | some t' => rfl

/-- **A type reads back as itself exactly when it is not one of the five.** -/
theorem EventType.readBack_eq_self_iff (t : EventType) : t.readBack = t ↔ t ∉ codeCollisions := by
  constructor
  · intro h hmem
    simp only [codeCollisions, List.mem_cons, List.not_mem_nil, or_false] at hmem
    rcases hmem with rfl | rfl | rfl | rfl | rfl <;> revert h <;> decide
  · intro h
    rw [readBack, (fromCode_code_or_mem t).resolve_right h, Option.getD_some]

end Stalwart.Trc
