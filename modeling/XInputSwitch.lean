import XInputSwitch.Trace
import XInputSwitch.XorCrc
import XInputSwitch.Syndrome
import XInputSwitch.Buffer
import XInputSwitch.Mailbox
import XInputSwitch.Lines
import XInputSwitch.ExpiryTable
import XInputSwitch.Python
import XInputSwitch.Numerals
import XInputSwitch.LowerCase
import XInputSwitch.TextFile
import XInputSwitch.JsonTokens
import XInputSwitch.Json
import XInputSwitch.JsonCut
import XInputSwitch.CommandLine
import XInputSwitch.ArgParse
import XInputSwitch.Datatypes
import XInputSwitch.Joystick
import XInputSwitch.SerialHost
import XInputSwitch.PacketCrc
import XInputSwitch.Receiver
import XInputSwitch.Resync
import XInputSwitch.Link
import XInputSwitch.SyncProtocol
import XInputSwitch.SyncProgress
import XInputSwitch.EmulatedSPI
import XInputSwitch.Response
import XInputSwitch.Firmware
import XInputSwitch.TornRead
import XInputSwitch.Interrupts
import XInputSwitch.Linearization
import XInputSwitch.Framing
import XInputSwitch.LostByte
import XInputSwitch.Corruption
import XInputSwitch.Failsafe
import XInputSwitch.Replies
import XInputSwitch.Flash
import XInputSwitch.ReplyDiscipline
import XInputSwitch.ReplyMemory
import XInputSwitch.Controllers
import XInputSwitch.Bridge
import XInputSwitch.BridgeGating
import XInputSwitch.Session
import XInputSwitch.SessionEnd
import XInputSwitch.BuildPacket
import XInputSwitch.Gamepads
import XInputSwitch.MouseAim
import XInputSwitch.Encoding
import XInputSwitch.TornReports
import XInputSwitch.PadSocket
import XInputSwitch.SocketInput
import XInputSwitch.SocketPresses
import XInputSwitch.Backends
import XInputSwitch.StickEncoding
import XInputSwitch.SocketLines
import XInputSwitch.SocketAtomic
import XInputSwitch.SocketThreads
import XInputSwitch.DiscordBot
import XInputSwitch.DiscordAccess
import XInputSwitch.DiscordRelay
import XInputSwitch.DiscordPrefix
import XInputSwitch.ChatInput
import XInputSwitch.ChatSystem
import XInputSwitch.EnvFile
import XInputSwitch.Settings
import XInputSwitch.ProcessArguments
import XInputSwitch.BridgeArguments
import XInputSwitch.Launchers
import XInputSwitch.SettingsFile
import XInputSwitch.PlayniteSession
