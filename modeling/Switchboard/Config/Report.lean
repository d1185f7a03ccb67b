import Switchboard.Config.Settings
import Switchboard.Report
/-!
# Reports of settings

Settings are reported field by field under their TOML names, absent options as null.
-/
namespace Switchboard

def TlsSettings.report (t : TlsSettings) : Report :=
  .record [("enabled", .bool t.enabled), ("cert_file", Report.opt .text t.certFile),
    ("key_file", Report.opt .text t.keyFile), ("min_version", Report.opt .text t.minVersion),
    ("max_version", Report.opt .text t.maxVersion), ("alpn", Report.texts t.alpn)]

def ServerSettings.report (s : ServerSettings) : Report :=
  .record [("name", .text s.name), ("bind_address", .text s.bindAddress),
    ("max_pending_request", .num s.maxPendingRequest),
    ("max_session_pending_request", .num s.maxSessionPendingRequest),
    ("max_session_request_per_second", .num s.maxSessionRequestPerSecond),
    ("receive_fiber_threads", .num s.receiveFiberThreads), ("other_fiber_threads", .num s.otherFiberThreads),
    ("receive_buffer_size", .num s.receiveBufferSize), ("send_buffer_size", .num s.sendBufferSize),
    ("tcp_no_delay", .bool s.tcpNoDelay), ("reuse_address", .bool s.reuseAddress),
    ("listen_backlog", .int s.listenBacklog), ("max_message_size", .num s.maxMessageSize),
    ("tls", s.tls.report)]

def ClientSettings.report (c : ClientSettings) : Report :=
  .record [("send_rate", .num c.sendRate), ("default_timeout_secs", .num c.defaultTimeoutSecs),
    ("ping_interval_ms", .num c.pingIntervalMs), ("max_rtt_samples", .num c.maxRttSamples),
    ("receive_buffer_size", .num c.receiveBufferSize), ("tcp_no_delay", .bool c.tcpNoDelay),
    ("connect_timeout_ms", .num c.connectTimeoutMs)]

def Settings.report (s : Settings) : Report :=
  .record [("log_filter", .text s.logFilter), ("server", s.server.report), ("client", s.client.report)]

/-- The report of a configuration error: a parse error by kind alone, an invalid one with its
problems. -/
def ConfigError.report (e : ConfigError) : Report :=
  match e with
  | .parse => .record [("error", .text "Parse")]
  | .invalid ps => .record [("error", .text "Invalid"), ("message", .text e.message), ("problems", Report.texts ps)]

def reportSettings : Except ConfigError Settings → Report
  | .ok s => .record [("settings", s.report), ("update_interval_ns", .num s.client.updateInterval),
      ("default_timeout_secs", .num (s.client.defaultTimeout / nanosPerSecond)),
      ("ping_interval_ms", Report.opt (fun n => .num (n / nanosPerMilli)) s.client.pingInterval),
      ("server_valid", .bool s.server.problems.isEmpty)]
  | .error e => e.report

end Switchboard
