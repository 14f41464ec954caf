import OpenSSHServerPN.Win32.FileOpen
import OpenSSHServerPN.Manager.Framing
import OpenSSHServerPN.Win32.DescriptorWrite
import OpenSSHServerPN.Win32.DescriptorRead
import OpenSSHServerPN.Agent.Framing
import OpenSSHServerPN.Agent.ProviderRemoval
import OpenSSHServerPN.Agent.RefusedAdd
import OpenSSHServerPN.Match.Language
import OpenSSHServerPN.Match.Cidr
import OpenSSHServerPN.Win32.SidEntries
import OpenSSHServerPN.Manager.JournalRuns
import OpenSSHServerPN.Manager.TransferRecords
import OpenSSHServerPN.Packet.SendOrder
import OpenSSHServerPN.Packet.SealedOnce
import OpenSSHServerPN.Kex.StrictPrefix
import OpenSSHServerPN.Packet.RoundTrip
import OpenSSHServerPN.Servconf.IncludeReread
import OpenSSHServerPN.Monitor.Gate
import OpenSSHServerPN.Monitor.KeyOptions
import OpenSSHServerPN.Channels.CloseProtocol
import OpenSSHServerPN.Channels.Credit
import OpenSSHServerPN.Channels.Datagram
import OpenSSHServerPN.Channels.Permissions
import OpenSSHServerPN.Manager.SetValue
import OpenSSHServerPN.Manager.Backups
import OpenSSHServerPN.Sshbuf.Values
import OpenSSHServerPN.Manager.SshdArgs
import OpenSSHServerPN.Agent.SessionBind
import OpenSSHServerPN.Sftp.CopyData
import OpenSSHServerPN.Win32.CommandLine
